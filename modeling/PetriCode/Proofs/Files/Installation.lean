import PetriCode.Proofs.Files.Staging
import PetriCode.Proofs.Generation

/-! Installing a module in a directory, from beginning to end. There is one lemma for each way that the work
can take on any disk, and from these follows what it comes to on the disk of a tree, by what each
operation of that disk does. -/
namespace PetriCode.Files
open PetriCode.Files.Tree

section Exits
variable {disk : Disk (StateM History)} {directory : String} {artifacts : Artifacts}
  {start one two three four five : History} {interface implementation : String} {fault : Fault}

theorem install_unstaged
    (unstaged : disk.stage directory artifacts.interface.toUTF8 start = (.error fault, one)) :
    install disk directory artifacts start =
      (.error ⟨join directory artifacts.interfaceFile, fault⟩, one) := by
  simp only [install, bind, StateT.bind, unstaged]
  rfl

variable (first : disk.stage directory artifacts.interface.toUTF8 start = (.ok interface, one))
  (second : disk.stage directory artifacts.implementation.toUTF8 one = (.ok implementation, two))
include first second

theorem install_first_refused
    (refused : disk.rename directory interface artifacts.interfaceFile two = (.error fault, three))
    (cleaned : disk.discard directory interface three = ((), four))
    (emptied : disk.discard directory implementation four = ((), five)) :
    install disk directory artifacts start =
      (.error ⟨join directory artifacts.interfaceFile, fault⟩, five) := by
  simp only [install, bind, StateT.bind, first, second, refused, cleaned, emptied]
  rfl

theorem install_second_refused
    (placed : disk.rename directory interface artifacts.interfaceFile two = (.ok (), three))
    (refused : disk.rename directory implementation artifacts.implementationFile three =
      (.error fault, four))
    (cleaned : disk.discard directory implementation four = ((), five)) :
    install disk directory artifacts start =
      (.error ⟨join directory artifacts.implementationFile, fault⟩, five) := by
  simp only [install, bind, StateT.bind, first, second, placed, refused, cleaned]
  rfl

theorem install_both
    (placed : disk.rename directory interface artifacts.interfaceFile two = (.ok (), three))
    (renamed : disk.rename directory implementation artifacts.implementationFile three =
      (.ok (), four)) :
    install disk directory artifacts start =
      (.ok (join directory artifacts.interfaceFile, join directory artifacts.implementationFile),
        four) := by
  simp only [install, bind, StateT.bind, first, second, placed, renamed]
  rfl

end Exits

section Names

theorem isPlain_of_identifier {spelling suffix : String} (identifier : C.isIdentifier spelling.toList)
    (undivided : '/' ∉ suffix.toList) : IsPlain (spelling ++ suffix) := by
  cases letters : spelling.toList with
  | nil => simp [letters, C.isIdentifier] at identifier
  | cons first rest =>
    simp only [letters, C.isIdentifier, Bool.and_eq_true, List.all_eq_true] at identifier
    have whole : (spelling ++ suffix).toList = first :: (rest ++ suffix.toList) := by
      rw [String.toList_append, letters, List.cons_append]
    refine ⟨?_, ?_, ?_⟩
    · intro empty
      rw [empty] at whole
      cases whole
    · rw [whole, List.head?_cons, ne_eq, Option.some.injEq]
      rintro rfl
      exact absurd identifier.1 (by decide)
    · rw [whole, List.mem_cons, List.mem_append]
      rintro (rfl | member | member)
      · exact absurd identifier.1 (by decide)
      · exact absurd (identifier.2 _ member) (by decide)
      · exact undivided member

theorem IsPlain.ne_stagedName {name : String} (plain : IsPlain name) (number : Nat) :
    name ≠ stagedName number := by
  rintro rfl
  exact plain.undotted (by simp [stagedName])

end Names

end PetriCode.Files

namespace PetriCode
open Files

/-- The two files of a module with their names, in the order in which they are installed. -/
def Artifacts.files (artifacts : Artifacts) : List (String × String) :=
  [(artifacts.interfaceFile, artifacts.interface),
    (artifacts.implementationFile, artifacts.implementation)]

theorem Artifacts.interface_mem (artifacts : Artifacts) :
    (artifacts.interfaceFile, artifacts.interface) ∈ artifacts.files :=
  List.mem_cons_self

theorem Artifacts.implementation_mem (artifacts : Artifacts) :
    (artifacts.implementationFile, artifacts.implementation) ∈ artifacts.files :=
  List.mem_cons_of_mem _ List.mem_cons_self

/-- The names of a module's files: its own name in lower case and one of two endings. -/
theorem fileNames_of_generate {net : Net} {module : String} {artifacts : Artifacts}
    (generated : generate net module = .ok artifacts) :
    artifacts.interfaceFile = String.ofList (Text.lowercaseAscii module.toList) ++ ".h" ∧
      artifacts.implementationFile = String.ofList (Text.lowercaseAscii module.toList) ++ ".c" := by
  obtain ⟨name, _, named, _, _, rfl⟩ := generate_eq_ok_iff.1 generated
  simp only [ModuleName.ofString?, Option.dite_none_right_eq_some, Option.some.injEq] at named
  obtain ⟨_, rfl⟩ := named
  exact ⟨rfl, rfl⟩

/-- What is asked of the names of a module's files so that they can be installed side by side. -/
structure Artifacts.HasPlainFiles (artifacts : Artifacts) : Prop where
  interface : IsPlain artifacts.interfaceFile
  implementation : IsPlain artifacts.implementationFile
  different : artifacts.interfaceFile ≠ artifacts.implementationFile

theorem Artifacts.HasPlainFiles.isPlain {artifacts : Artifacts} (plain : artifacts.HasPlainFiles) :
    ∀ file ∈ artifacts.files, IsPlain file.1 := by
  simpa [Artifacts.files] using And.intro plain.interface plain.implementation

theorem Artifacts.HasPlainFiles.nodup {artifacts : Artifacts} (plain : artifacts.HasPlainFiles) :
    (artifacts.files.map Prod.fst).Nodup := by
  simpa [Artifacts.files] using plain.different

theorem hasPlainFiles_of_generate {net : Net} {module : String} {artifacts : Artifacts}
    (generated : generate net module = .ok artifacts) : artifacts.HasPlainFiles := by
  obtain ⟨name, _, named, _, _, rfl⟩ := generate_eq_ok_iff.1 generated
  have identifier : C.isIdentifier name.lower.toList := by
    rw [ModuleName.lower, String.toList_ofList]
    exact name.identifier
  refine ⟨isPlain_of_identifier identifier (by decide), isPlain_of_identifier identifier (by decide), ?_⟩
  intro same
  exact absurd (String.append_right_inj _ |>.1 same) (by decide)

namespace Files
open PetriCode.Files.Tree

/-- The disk takes the names and paths that an installation needs: they are not too long, and there is no
null character in them. -/
structure Admits (home : Location) (directory : String) (artifacts : Artifacts) : Prop where
  staging : admitPath (join (fromRoot home directory) (stagedName 0)) = .ok ()
  names : ∀ file ∈ artifacts.files, admitName file.1 = .ok ()
  paths : ∀ file ∈ artifacts.files, admitPath (join directory file.1) = .ok ()

section Run
variable {tree : Tree} {home here : Location} {directory : String} {artifacts : Artifacts}

section Sheets
variable {first second : Nat} {name : String}

/-- Both files of a module, staged. -/
def stagedSheet (artifacts : Artifacts) (first second : Nat) : Sheet :=
  Function.update (Function.update (Sheet.of []) (stagedName first)
    (some artifacts.interface.toUTF8)) (stagedName second) (some artifacts.implementation.toUTF8)

theorem stagedSheet_first (apart : stagedName second ≠ stagedName first) :
    stagedSheet artifacts first second (stagedName first) = some artifacts.interface.toUTF8 := by
  rw [stagedSheet, Function.update_of_ne apart.symm, Function.update_self]

theorem stagedSheet_second :
    stagedSheet artifacts first second (stagedName second) =
      some artifacts.implementation.toUTF8 :=
  Function.update_self ..

theorem stagedSheet_plain (plain : IsPlain name) :
    stagedSheet artifacts first second name = none := by
  rw [stagedSheet, Function.update_of_ne (plain.ne_stagedName _),
    Function.update_of_ne (plain.ne_stagedName _), Sheet.of_nil]

theorem stagedSheet_emptied :
    Function.update (Function.update (stagedSheet artifacts first second) (stagedName first) none)
      (stagedName second) none = Sheet.of [] := by
  funext name
  simp only [stagedSheet, Function.update_apply, Sheet.of_nil]
  split_ifs <;> rfl

/-- A module with its interface in place and its implementation staged. -/
def halfSheet (artifacts : Artifacts) (first second : Nat) : Sheet :=
  Function.update (Function.update (stagedSheet artifacts first second) (stagedName first) none)
    artifacts.interfaceFile (some artifacts.interface.toUTF8)

theorem halfSheet_second (plain : artifacts.HasPlainFiles)
    (apart : stagedName second ≠ stagedName first) :
    halfSheet artifacts first second (stagedName second) =
      some artifacts.implementation.toUTF8 := by
  rw [halfSheet, Function.update_of_ne (plain.interface.ne_stagedName second).symm,
    Function.update_of_ne apart, stagedSheet_second]

theorem halfSheet_implementationFile (plain : artifacts.HasPlainFiles) :
    halfSheet artifacts first second artifacts.implementationFile = none := by
  rw [halfSheet, Function.update_of_ne plain.different.symm,
    Function.update_of_ne (plain.implementation.ne_stagedName first),
    stagedSheet_plain plain.implementation]

theorem halfSheet_discarded (plain : artifacts.HasPlainFiles) :
    Function.update (halfSheet artifacts first second) (stagedName second) none =
      Sheet.of [(artifacts.interfaceFile, artifacts.interface)] := by
  rw [halfSheet, Function.update_comm (plain.interface.ne_stagedName second), Sheet.of_cons]
  congr 1
  funext other
  simp only [stagedSheet, Function.update_apply, Sheet.of_nil]
  split_ifs <;> rfl

theorem halfSheet_placed (plain : artifacts.HasPlainFiles) :
    Function.update (Function.update (halfSheet artifacts first second) (stagedName second) none)
      artifacts.implementationFile (some artifacts.implementation.toUTF8) =
      Sheet.of artifacts.files := by
  rw [halfSheet_discarded plain, Artifacts.files, Sheet.of_cons, Sheet.of_cons, Sheet.of_cons,
    Function.update_comm plain.different]

end Sheets

/-- Both files are staged in a directory, under different names. -/
theorem stage_both (artifacts : Artifacts) (located : tree.locate home directory = .ok here)
    (admitted : admitPath (join (fromRoot home directory) (stagedName 0)) = .ok ()) :
    ∃ first second one two,
      (treeDisk home).stage directory artifacts.interface.toUTF8 (.start tree) =
        (.ok (stagedName first), one) ∧
      (treeDisk home).stage directory artifacts.implementation.toUTF8 one =
        (.ok (stagedName second), two) ∧
      stagedName second ≠ stagedName first ∧ tree.get? (here ++ [stagedName first]) = none ∧
      tree.get? (here ++ [stagedName second]) = none ∧
      Underway tree home directory here artifacts.files two (stagedSheet artifacts first second) := by
  have begun : Underway tree home directory here artifacts.files (.start tree) (Sheet.of []) :=
    .start located
  obtain ⟨first, one, staged, _, firstFree, underway⟩ :=
    begun.stage admitted artifacts.interface.toUTF8
  obtain ⟨second, two, again, bare, secondFree, further⟩ :=
    underway.stage admitted artifacts.implementation.toUTF8
  refine ⟨first, second, one, two, staged, again, ?_, firstFree, secondFree, further⟩
  intro same
  rw [same, Function.update_self] at bare
  cases bare

/-- If the interface is refused its name, nothing is left behind. -/
theorem install_unplaced (located : tree.locate home directory = .ok here)
    (staging : admitPath (join (fromRoot home directory) (stagedName 0)) = .ok ())
    (plain : IsPlain artifacts.interfaceFile) {fault : Fault}
    (refused : ∀ first history sheet,
      Underway tree home directory here artifacts.files history sheet →
      sheet (stagedName first) = some artifacts.interface.toUTF8 →
      sheet artifacts.interfaceFile = none →
      (treeDisk home).rename directory (stagedName first) artifacts.interfaceFile history =
        (.error fault, history)) :
    ∃ after, install (treeDisk home) directory artifacts (.start tree) =
        (.error ⟨join directory artifacts.interfaceFile, fault⟩, after) ∧
      Underway tree home directory here artifacts.files after (Sheet.of []) := by
  obtain ⟨first, second, one, two, staged, again, apart, firstFree, secondFree, underway⟩ :=
    stage_both artifacts located staging
  have stopped := refused first two _ underway (stagedSheet_first apart) (stagedSheet_plain plain)
  obtain ⟨four, cleaned, further⟩ := underway.discard firstFree
  obtain ⟨five, emptied, ending⟩ := further.discard secondFree
  rw [stagedSheet_emptied] at ending
  exact ⟨five, install_first_refused staged again stopped cleaned emptied, ending⟩

section Endings
variable (located : tree.locate home directory = .ok here) (plain : artifacts.HasPlainFiles)
  (admitted : Admits home directory artifacts)
include located plain admitted

/-- If the interface would cover a directory, nothing is left behind. -/
theorem install_first_covers
    (covers : tree.get? (here ++ [artifacts.interfaceFile]) = some .directory) :
    ∃ after, install (treeDisk home) directory artifacts (.start tree) =
        (.error ⟨join directory artifacts.interfaceFile, .isDirectory⟩, after) ∧
      Underway tree home directory here artifacts.files after (Sheet.of []) := by
  apply install_unplaced located admitted.staging plain.interface
  intro first history sheet underway staged bare
  exact underway.rename_refused staged bare (admitted.paths (_, _) artifacts.interface_mem)
    (admitted.names (_, _) artifacts.interface_mem) covers

section First
variable (clear : tree.get? (here ++ [artifacts.interfaceFile]) ≠ some .directory)
include clear

/-- The interface gets its place if it covers no directory. -/
theorem place_interface :
    ∃ first second one two three,
      (treeDisk home).stage directory artifacts.interface.toUTF8 (.start tree) =
        (.ok (stagedName first), one) ∧
      (treeDisk home).stage directory artifacts.implementation.toUTF8 one =
        (.ok (stagedName second), two) ∧
      (treeDisk home).rename directory (stagedName first) artifacts.interfaceFile two =
        (.ok (), three) ∧
      stagedName second ≠ stagedName first ∧ tree.get? (here ++ [stagedName second]) = none ∧
      Underway tree home directory here artifacts.files three (halfSheet artifacts first second) := by
  obtain ⟨first, second, one, two, staged, again, apart, firstFree, secondFree, underway⟩ :=
    stage_both artifacts located admitted.staging
  obtain ⟨three, placed, halfway⟩ := underway.rename (stagedSheet_first apart) firstFree
    artifacts.interface_mem (stagedSheet_plain plain.interface)
    (admitted.paths (_, _) artifacts.interface_mem) (admitted.names (_, _) artifacts.interface_mem) clear
  exact ⟨first, second, one, two, three, staged, again, placed, apart, secondFree, halfway⟩

/-- If only the implementation would cover a directory, the interface has already been placed. -/
theorem install_second_covers
    (covers : tree.get? (here ++ [artifacts.implementationFile]) = some .directory) :
    ∃ after, install (treeDisk home) directory artifacts (.start tree) =
        (.error ⟨join directory artifacts.implementationFile, .isDirectory⟩, after) ∧
      Underway tree home directory here artifacts.files after
        (Sheet.of [(artifacts.interfaceFile, artifacts.interface)]) := by
  obtain ⟨first, second, one, two, three, staged, again, placed, apart, free, halfway⟩ :=
    place_interface located plain admitted clear
  have refused := halfway.rename_refused (halfSheet_second plain apart)
    (halfSheet_implementationFile plain) (admitted.paths (_, _) artifacts.implementation_mem)
    (admitted.names (_, _) artifacts.implementation_mem) covers
  obtain ⟨five, cleaned, ending⟩ := halfway.discard free
  rw [halfSheet_discarded plain] at ending
  exact ⟨five, install_second_refused staged again placed refused cleaned, ending⟩

/-- If neither file would cover a directory, both are placed. -/
theorem install_neither_covers
    (vacant : tree.get? (here ++ [artifacts.implementationFile]) ≠ some .directory) :
    ∃ after, install (treeDisk home) directory artifacts (.start tree) =
        (.ok (join directory artifacts.interfaceFile,
          join directory artifacts.implementationFile), after) ∧
      Underway tree home directory here artifacts.files after (Sheet.of artifacts.files) := by
  obtain ⟨first, second, one, two, three, staged, again, placed, apart, free, halfway⟩ :=
    place_interface located plain admitted clear
  obtain ⟨four, renamed, ending⟩ := halfway.rename (halfSheet_second plain apart) free
    artifacts.implementation_mem (halfSheet_implementationFile plain)
    (admitted.paths (_, _) artifacts.implementation_mem)
    (admitted.names (_, _) artifacts.implementation_mem) vacant
  rw [halfSheet_placed plain] at ending
  exact ⟨four, install_both staged again placed renamed, ending⟩

end First
end Endings

end Run
end Files
end PetriCode
