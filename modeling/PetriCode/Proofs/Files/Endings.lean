import PetriCode.Proofs.Files.Installation

/-! The ways in which the installation of a module can end, in any tree and whatever names and paths the disk
takes. Either nothing is changed, or the interface alone has been written beside a directory with the
name of the implementation, or both files have been written. The two names are equally long, so that
the disk takes both or neither. -/
namespace PetriCode.Files
open PetriCode.Files.Tree

/-- How an installation in a directory of a tree has ended. -/
inductive Ends (tree : Tree) (home : Location) (directory : String) (artifacts : Artifacts) :
    Except InstallError (String × String) → History → Prop
  | untouched {error : InstallError} {after : History}
    (same : ∀ location, after.now.get? location = tree.get? location) :
    Ends tree home directory artifacts (.error error) after
  | half {error : InstallError} {after : History} {here : Location}
    (located : tree.locate home directory = .ok here)
    (covers : tree.get? (here ++ [artifacts.implementationFile]) = some .directory)
    (overlaid : after.now.Overlaid tree here
      (Sheet.of [(artifacts.interfaceFile, artifacts.interface)])) :
    Ends tree home directory artifacts (.error error) after
  | whole {after : History} {here : Location} (located : tree.locate home directory = .ok here)
    (admitted : Admits home directory artifacts)
    (covered : after.now.Covered tree here artifacts.files (Sheet.of artifacts.files)) :
    Ends tree home directory artifacts
      (.ok (join directory artifacts.interfaceFile, join directory artifacts.implementationFile))
      after

section Names
variable {first second : String}

theorem admitName_of_size (size : second.utf8ByteSize = first.utf8ByteSize)
    (admitted : admitName first = .ok ()) : admitName second = .ok () := by
  unfold admitName at admitted ⊢
  rwa [size]

theorem admitPath_of_size {directory : String} (size : second.utf8ByteSize = first.utf8ByteSize)
    (plain : '\x00' ∈ second.toList → '\x00' ∈ first.toList)
    (admitted : admitPath (join directory first) = .ok ()) :
    admitPath (join directory second) = .ok () := by
  unfold admitPath at admitted ⊢
  rw [join_eq_divider] at admitted ⊢
  simp only [String.utf8ByteSize_append, String.toList_append, List.mem_append, size] at admitted ⊢
  split_ifs at admitted ⊢ <;> tauto

end Names

/-- A disk that takes the name of the interface takes that of the implementation. -/
theorem admits_of_interface {home : Location} {directory : String} {net : Net} {module : String}
    {artifacts : Artifacts} (generated : generate net module = .ok artifacts)
    (staging : admitPath (join (fromRoot home directory) (stagedName 0)) = .ok ())
    (path : admitPath (join directory artifacts.interfaceFile) = .ok ())
    (name : admitName artifacts.interfaceFile = .ok ()) : Admits home directory artifacts := by
  obtain ⟨interface, implementation⟩ := fileNames_of_generate generated
  have size : artifacts.implementationFile.utf8ByteSize =
      artifacts.interfaceFile.utf8ByteSize := by
    rw [interface, implementation, String.utf8ByteSize_append, String.utf8ByteSize_append]
    rfl
  have plain : '\x00' ∈ artifacts.implementationFile.toList →
      '\x00' ∈ artifacts.interfaceFile.toList := by
    rw [interface, implementation, String.toList_append, String.toList_append]
    simp
  refine ⟨staging, ?_, ?_⟩
  · simpa [Artifacts.files] using And.intro name (admitName_of_size size name)
  · simpa [Artifacts.files] using And.intro path (admitPath_of_size size plain path)

/-- Every tree that has been seen is the first one with whole files laid over the directory. -/
theorem Underway.seen {tree : Tree} {home here : Location} {directory : String}
    {files : List (String × String)} {history : History} {sheet : Sheet}
    (underway : Underway tree home directory here files history sheet) :
    ∀ seen ∈ history.trees, ∃ here sheet, seen.Covered tree here files sheet := by
  intro seen member
  obtain rfl | behind := List.mem_cons.1 member
  · exact ⟨here, sheet, underway.now⟩
  · exact ⟨here, underway.past seen behind⟩

/-- Every installation of a generated module ends in one of the three ways, and all trees on the way are the
first one with whole files laid over a directory. -/
theorem install_course (tree : Tree) (home : Location) (directory : String) {net : Net}
    {module : String} {artifacts : Artifacts} (generated : generate net module = .ok artifacts) :
    Ends tree home directory artifacts
        (install (treeDisk home) directory artifacts (.start tree)).1
        (install (treeDisk home) directory artifacts (.start tree)).2 ∧
      ∀ seen ∈ (install (treeDisk home) directory artifacts (.start tree)).2.trees,
        ∃ here sheet, seen.Covered tree here artifacts.files sheet := by
  have plain := hasPlainFiles_of_generate generated
  cases place : tree.stagingPlace home directory with
  | error fault =>
    have unstaged : (treeDisk home).stage directory artifacts.interface.toUTF8 (.start tree) =
        (.error fault, .start tree) := by
      simp only [treeDisk, History.start, place]
    rw [install_unstaged unstaged]
    refine ⟨.untouched fun _ => rfl, List.forall_mem_singleton.2 ⟨[], Sheet.of [], .refl tree [], ?_⟩⟩
    simp [Sheet.of_nil]
  | ok here =>
    obtain ⟨_, staging, located⟩ := bind_eq_ok_iff.1 place
    cases admits : (admitPath (join directory artifacts.interfaceFile) >>=
        fun _ => admitName artifacts.interfaceFile) with
    | error fault =>
      obtain ⟨after, ran, underway⟩ := install_unplaced located staging plain.interface
        fun first history sheet underway _ _ => underway.rename_unadmitted admits
      rw [ran]
      exact ⟨.untouched underway.now.overlaid.get?_eq, underway.seen⟩
    | ok _ =>
      obtain ⟨_, path, name⟩ := bind_eq_ok_iff.1 admits
      have admitted := admits_of_interface generated staging path name
      by_cases first : tree.get? (here ++ [artifacts.interfaceFile]) = some .directory
      · obtain ⟨after, ran, underway⟩ := install_first_covers located plain admitted first
        rw [ran]
        exact ⟨.untouched underway.now.overlaid.get?_eq, underway.seen⟩
      · by_cases second : tree.get? (here ++ [artifacts.implementationFile]) = some .directory
        · obtain ⟨after, ran, underway⟩ := install_second_covers located plain admitted first second
          rw [ran]
          exact ⟨.half located second underway.now.overlaid, underway.seen⟩
        · obtain ⟨after, ran, underway⟩ :=
            install_neither_covers located plain admitted first second
          rw [ran]
          exact ⟨.whole located admitted underway.now, underway.seen⟩

theorem install_ends (tree : Tree) (home : Location) (directory : String) {net : Net}
    {module : String} {artifacts : Artifacts} (generated : generate net module = .ok artifacts) :
    Ends tree home directory artifacts
      (install (treeDisk home) directory artifacts (.start tree)).1
      (install (treeDisk home) directory artifacts (.start tree)).2 :=
  (install_course tree home directory generated).1

/-- A file under another name than those of the module stays as it is, wherever it is, at every moment of an
installation. -/
theorem install_keeps {tree : Tree} {home place : Location} {directory name : String} {net : Net}
    {module : String} {artifacts : Artifacts} (generated : generate net module = .ok artifacts)
    (other : ∀ file ∈ artifacts.files, file.1 ≠ name) {content : ByteArray}
    (standing : tree.get? (place ++ [name]) = some (.file content)) :
    ∀ seen ∈ (install (treeDisk home) directory artifacts (.start tree)).2.trees,
      seen.get? (place ++ [name]) = some (.file content) := by
  intro seen member
  obtain ⟨here, sheet, covered⟩ := (install_course tree home directory generated).2 seen member
  rw [covered.overlaid.get?_elsewhere, standing]
  rintro rfl
  rw [Option.eq_none_iff_forall_ne_some]
  intro found laid
  obtain ⟨text, listed, _⟩ | ⟨_, free⟩ := covered.permitted name found laid
  · exact other _ listed rfl
  · rw [standing] at free
    cases free

end PetriCode.Files
