import PetriCode.Proofs.Files.Endings
import PetriCode.Proofs.Settlement

/-! Runs on a tree of files. Modules are installed in any directories, with any outcome, and between the
installations others make directories and take files and empty directories away. Only installations
bring files, so an implementation is there only as long as the one that was installed last under its
name, and an interface beside it is the one that came with it: an installation that fails half way
finds a directory where the implementation would be. -/
namespace PetriCode.Files
open PetriCode.Files.Tree

/-- What others do to a tree: one directory is made, or one file or one empty directory is taken away. -/
inductive Tree.Altered (tree : Tree) : Tree → Prop
  | makeDirectory {location : Location} (vacant : tree.get? location = none)
    (parent : tree.get? location.dropLast = some .directory) :
    Altered tree (tree.put location .directory)
  | removeFile {location : Location} {content : ByteArray}
    (standing : tree.get? location = some (.file content)) : Altered tree (tree.erase location)
  | removeDirectory {location : Location} (standing : tree.get? location = some .directory)
    (inner : location ≠ []) (bare : ∀ name, tree.get? (location ++ [name]) = none) :
    Altered tree (tree.erase location)

/-- An installation that succeeded: where, under which module's name in lower case, and what. -/
structure Installed where
  place : Location
  spelling : String
  artifacts : Artifacts

/-- What was installed last in a place under a name, in a log with the latest installation first. -/
def latest? (log : List Installed) (place : Location) (spelling : String) : Option Artifacts :=
  (log.find? fun entry => entry.place = place ∧ entry.spelling = spelling).map Installed.artifacts

/-- A tree that has come of another one by installations and by what others did, with the log of the
installations that succeeded. -/
inductive Run (start : Tree) : Tree → List Installed → Prop
  | begins : Run start start []
  | installs {tree : Tree} {log : List Installed} {home here : Location} {directory module : String}
    {net : Net} {artifacts : Artifacts} {paths : String × String} {after : History}
    (run : Run start tree log) (generated : generate net module = .ok artifacts)
    (located : tree.locate home directory = .ok here)
    (outcome : install (treeDisk home) directory artifacts (.start tree) = (.ok paths, after)) :
    Run start after.now
      (⟨here, String.ofList (Text.lowercaseAscii module.toList), artifacts⟩ :: log)
  | fails {tree : Tree} {log : List Installed} {home : Location} {directory module : String}
    {net : Net} {artifacts : Artifacts} {error : InstallError} {after : History}
    (run : Run start tree log) (generated : generate net module = .ok artifacts)
    (outcome : install (treeDisk home) directory artifacts (.start tree) = (.error error, after)) :
    Run start after.now log
  | alters {tree later : Tree} {log : List Installed} (run : Run start tree log)
    (altered : tree.Altered later) : Run start later log

/-- An installation in any directory takes a run further. -/
theorem Run.goesOn {start tree : Tree} {log : List Installed} (run : Run start tree log)
    (home : Location) (directory : String) {net : Net} {module : String} {artifacts : Artifacts}
    (generated : generate net module = .ok artifacts) :
    ∃ further, Run start (install (treeDisk home) directory artifacts (.start tree)).2.now further := by
  have ends := install_ends tree home directory generated
  cases ran : install (treeDisk home) directory artifacts (.start tree) with
  | mk outcome after =>
    rw [ran] at ends
    cases ends with
    | untouched _ => exact ⟨_, .fails run generated ran⟩
    | half _ _ _ => exact ⟨_, .fails run generated ran⟩
    | whole located _ _ => exact ⟨_, .installs run generated located ran⟩

/-- Every implementation is the one that was installed last under its name, and so is an interface that
stands beside it. -/
def Matched (tree : Tree) (log : List Installed) : Prop :=
  ∀ place spelling code, tree.get? (place ++ [spelling ++ ".c"]) = some (.file code) →
    ∃ artifacts, latest? log place spelling = some artifacts ∧
      code = artifacts.implementation.toUTF8 ∧
      ∀ header, tree.get? (place ++ [spelling ++ ".h"]) = some (.file header) →
        header = artifacts.interface.toUTF8

section Steps
variable {tree later : Tree} {log : List Installed}

/-- Others bring no files. -/
theorem Tree.Altered.files (altered : tree.Altered later) {location : Location}
    {content : ByteArray} (standing : later.get? location = some (.file content)) :
    tree.get? location = some (.file content) := by
  cases altered with
  | @makeDirectory made vacant parent =>
    have inner : made ≠ [] := by
      rintro rfl
      cases vacant
    rw [get?_put inner] at standing
    split_ifs at standing
    · cases standing
    · exact standing
  | @removeFile removed _ found =>
    have inner : removed ≠ [] := by
      rintro rfl
      cases found
    rw [get?_erase inner] at standing
    split_ifs at standing
    exact standing
  | removeDirectory _ inner _ =>
    rw [get?_erase inner] at standing
    split_ifs at standing
    exact standing

theorem Matched.of_files (matched : Matched tree log)
    (kept : ∀ location content, later.get? location = some (.file content) →
      tree.get? location = some (.file content)) : Matched later log := by
  intro place spelling code standing
  obtain ⟨artifacts, installed, same, beside⟩ := matched place spelling code (kept _ _ standing)
  exact ⟨artifacts, installed, same, fun header found => beside header (kept _ _ found)⟩

theorem source_ne_header (first second : String) : first ++ ".c" ≠ second ++ ".h" := by
  intro same
  have last := congrArg (fun text => text.toList.getLast?) same
  simp at last

variable {here place : Location} {sheet : Sheet} {name : String} {net : Net} {module : String}
  {artifacts : Artifacts}

/-- An interface alone comes only where no implementation is. -/
theorem Matched.half (matched : Matched tree log)
    (generated : generate net module = .ok artifacts)
    (covers : tree.get? (here ++ [artifacts.implementationFile]) = some .directory)
    (overlaid : later.Overlaid tree here
      (Sheet.of [(artifacts.interfaceFile, artifacts.interface)])) : Matched later log := by
  obtain ⟨interface, implementation⟩ := fileNames_of_generate generated
  rw [implementation] at covers
  rw [interface] at overlaid
  intro place spelling code standing
  rw [overlaid.get?_elsewhere fun _ => by
    simp [Sheet.of_cons, Sheet.of_nil, source_ne_header]] at standing
  obtain ⟨artifacts, installed, same, beside⟩ := matched place spelling code standing
  refine ⟨artifacts, installed, same, ?_⟩
  intro header found
  apply beside
  rw [← found]
  symm
  apply overlaid.get?_elsewhere
  rintro rfl
  have other : spelling ++ ".h" ≠ String.ofList (Text.lowercaseAscii module.toList) ++ ".h" := by
    intro equal
    rw [(String.append_left_inj ".h").1 equal, covers] at standing
    cases standing
  simp [Sheet.of_cons, Sheet.of_nil, other]

/-- What is laid over a directory by both files of a module lies under its own names only. -/
theorem sheet_of_pair (stem spelling header source : String) :
    Sheet.of [(stem ++ ".h", header), (stem ++ ".c", source)] (spelling ++ ".h") =
        (if spelling = stem then some header.toUTF8 else none) ∧
      Sheet.of [(stem ++ ".h", header), (stem ++ ".c", source)] (spelling ++ ".c") =
        (if spelling = stem then some source.toUTF8 else none) := by
  have headers := (source_ne_header · · |>.symm)
  have names (suffix : String) : spelling ++ suffix = stem ++ suffix ↔ spelling = stem :=
    String.append_left_inj suffix
  simp [Sheet.of_cons, Sheet.of_nil, Function.update_apply, names, source_ne_header, headers]

/-- An installation in full brings an implementation and the interface that belongs to it. -/
theorem Matched.whole (matched : Matched tree log)
    (generated : generate net module = .ok artifacts)
    (overlaid : later.Overlaid tree here (Sheet.of artifacts.files)) :
    Matched later
      (⟨here, String.ofList (Text.lowercaseAscii module.toList), artifacts⟩ :: log) := by
  obtain ⟨interface, implementation⟩ := fileNames_of_generate generated
  rw [Artifacts.files, interface, implementation] at overlaid
  generalize String.ofList (Text.lowercaseAscii module.toList) = stem at overlaid ⊢
  intro place spelling code standing
  obtain ⟨header, source⟩ :=
    sheet_of_pair stem spelling artifacts.interface artifacts.implementation
  by_cases own : place = here ∧ spelling = stem
  · obtain ⟨rfl, rfl⟩ := own
    rw [if_pos rfl] at header source
    refine ⟨artifacts, by simp [latest?], ?_, ?_⟩
    · rw [overlaid.get?_of_some source] at standing
      cases standing
      rfl
    · intro beside found
      rw [overlaid.get?_of_some header] at found
      cases found
      rfl
  · have elsewhere : place = here → spelling ≠ stem := fun same equal => own ⟨same, equal⟩
    rw [overlaid.get?_elsewhere fun same => by rw [source, if_neg (elsewhere same)]] at standing
    obtain ⟨earlier, installed, same, beside⟩ := matched place spelling code standing
    refine ⟨earlier, ?_, same, ?_⟩
    · have passed : ¬ (here = place ∧ stem = spelling) := fun equal =>
        own ⟨equal.1.symm, equal.2.symm⟩
      simpa [latest?, passed] using installed
    · intro found standing
      rw [overlaid.get?_elsewhere fun same => by rw [header, if_neg (elsewhere same)]] at standing
      exact beside found standing

end Steps

/-- What every run from a tree without files keeps. -/
theorem Run.matched {start tree : Tree} {log : List Installed}
    (empty : ∀ location content, start.get? location ≠ some (.file content))
    (run : Run start tree log) : Matched tree log := by
  induction run with
  | begins => exact fun place spelling code standing => absurd standing (empty _ _)
  | @installs tree log home here directory module net artifacts paths after _ generated located
      outcome matched =>
    have ends := install_ends tree home directory generated
    rw [outcome] at ends
    cases ends with
    | whole again _ covered =>
      rw [located] at again
      cases again
      exact matched.whole generated covered.overlaid
  | @fails tree log home directory module net artifacts error after _ generated outcome matched =>
    have ends := install_ends tree home directory generated
    rw [outcome] at ends
    cases ends with
    | untouched same => exact matched.of_files fun location content standing => by rwa [← same]
    | half _ covers overlaid => exact matched.half generated covers overlaid
  | alters _ altered matched => exact matched.of_files fun _ _ => altered.files

/-- After any run on a tree that had no files, an interface and an implementation of one name that stand
side by side are those of one and the same module, the one that was installed there last. -/
theorem pairs_match (start tree : Tree) (log : List Installed)
    (empty : ∀ location content, start.get? location ≠ some (.file content))
    (run : Run start tree log) (place : Location) (spelling : String) (header code : ByteArray)
    (interface : tree.get? (place ++ [spelling ++ ".h"]) = some (.file header))
    (implementation : tree.get? (place ++ [spelling ++ ".c"]) = some (.file code)) :
    ∃ artifacts, latest? log place spelling = some artifacts ∧
      header = artifacts.interface.toUTF8 ∧ code = artifacts.implementation.toUTF8 := by
  obtain ⟨artifacts, installed, same, beside⟩ :=
    run.matched empty place spelling code implementation
  exact ⟨artifacts, installed, beside header interface, same⟩

section Obstructed

theorem obstructed_bare (location : Location) (content : ByteArray) :
    obstructed.get? location ≠ some (.file content) := by
  intro standing
  unfold get? at standing
  split_ifs at standing
  · cases standing
  · obtain ⟨before, after, parts, _⟩ := List.lookup_eq_some_iff.1 standing
    have member : (location, Entry.file content) ∈ obstructed.entries := by
      rw [parts]
      simp
    simp [obstructed] at member

theorem locate_out {tree : Tree} (standing : tree.get? ["out"] = some .directory) :
    tree.locate [] "out" = .ok ["out"] := by
  have steps : way [] "out" = ["", "out"] := by decide
  have entered : tree.enter [] "out" = .ok ["out"] :=
    enter_eq_ok_iff.2 ⟨by decide, standing, by decide⟩
  simp only [locate, steps, List.foldlM_cons, enter_nothing (get?_root _), bind, Except.bind,
    entered, List.foldlM_nil]
  rfl

theorem admits_demo {net : Net} {module : String} {artifacts : Artifacts}
    (generated : generate net module = .ok artifacts)
    (spelled : Text.lowercaseAscii module.toList = "demo".toList) :
    (artifacts.interfaceFile = "demo.h" ∧ artifacts.implementationFile = "demo.c") ∧
      Admits [] "out" artifacts := by
  obtain ⟨header, source⟩ := fileNames_of_generate generated
  have names : artifacts.interfaceFile = "demo.h" ∧ artifacts.implementationFile = "demo.c" := by
    rw [header, source, spelled]
    decide
  refine ⟨names, by decide, ?_, ?_⟩ <;>
    simp only [Artifacts.files, names, List.forall_mem_cons] <;> decide

/-- A module is installed where a directory has the name of its implementation, and the directory is taken
away: its interface stands alone. -/
theorem exists_lone_interface : ∃ tree, Run obstructed tree [] ∧
    tree.get? ["out"] = some .directory ∧ tree.get? ["out", "demo.c"] = none ∧
    ∃ text, tree.get? ["out", "demo.h"] = some (.file text) := by
  obtain ⟨artifacts, generated⟩ := handover_generates
  obtain ⟨⟨interface, implementation⟩, admitted⟩ := admits_demo generated (by decide)
  have clear : obstructed.get? (["out"] ++ [artifacts.interfaceFile]) ≠ some .directory := by
    rw [interface]
    nofun
  have covers : obstructed.get? (["out"] ++ [artifacts.implementationFile]) =
      some .directory := by
    rw [implementation]
    rfl
  obtain ⟨left, failed, underway⟩ := install_second_covers (locate_out rfl)
    (hasPlainFiles_of_generate generated) admitted clear covers
  have overlaid := underway.now.overlaid
  rw [interface] at overlaid
  have laid : Sheet.of [("demo.h", artifacts.interface)] "demo.c" = none := rfl
  have standing : left.now.get? ["out", "demo.c"] = some .directory := overlaid.get?_of_none laid
  have bare : ∀ name, left.now.get? (["out", "demo.c"] ++ [name]) = none := by
    intro name
    rw [overlaid.outside _ (by simp)]
    rfl
  refine ⟨left.now.erase ["out", "demo.c"],
    (Run.begins.fails generated failed).alters (.removeDirectory standing (by simp) bare), ?_⟩
  have kept : left.now.get? ["out"] = some .directory := by
    rw [overlaid.outside _ (by simp)]
    rfl
  have lone : left.now.get? ["out", "demo.h"] = some (.file artifacts.interface.toUTF8) :=
    overlaid.get?_of_some rfl
  simp only [get?_erase (List.cons_ne_nil "out" ["demo.c"])]
  exact ⟨by simpa using kept, by simp, _, by simpa using lone⟩

/-- The interface that stands alone does not stay when the module is installed for another net. -/
theorem pairs_match_obstructed : ∃ tree log artifacts header code,
    (∀ location content, obstructed.get? location ≠ some (.file content)) ∧
      Run obstructed tree log ∧ generate .empty "DEMO" = .ok artifacts ∧
      tree.get? ["out", "demo.h"] = some (.file header) ∧
      tree.get? ["out", "demo.c"] = some (.file code) ∧
      header = artifacts.interface.toUTF8 ∧ code = artifacts.implementation.toUTF8 := by
  obtain ⟨tree, run, place, vacant, text, lone⟩ := exists_lone_interface
  obtain ⟨second, generated⟩ : ∃ artifacts, generate .empty "DEMO" = .ok artifacts :=
    exists_ok_of_isOk (by decide +kernel)
  obtain ⟨⟨interface, implementation⟩, admitted⟩ := admits_demo generated (by decide)
  have first : tree.get? (["out"] ++ [second.interfaceFile]) ≠ some .directory := by
    rw [interface]
    exact fun covers => nomatch lone.symm.trans covers
  have other : tree.get? (["out"] ++ [second.implementationFile]) ≠ some .directory := by
    rw [implementation]
    exact fun covers => nomatch vacant.symm.trans covers
  obtain ⟨after, installed, underway⟩ := install_neither_covers (locate_out place)
    (hasPlainFiles_of_generate generated) admitted first other
  have whole := run.installs generated (locate_out place) installed
  have both := underway.now.overlaid
  rw [Artifacts.files, interface, implementation] at both
  have header : after.now.get? ["out", "demo.h"] = some (.file second.interface.toUTF8) :=
    both.get?_of_some rfl
  have code : after.now.get? ["out", "demo.c"] = some (.file second.implementation.toUTF8) :=
    both.get?_of_some rfl
  obtain ⟨artifacts, latest, same⟩ :=
    pairs_match obstructed after.now _ obstructed_bare whole ["out"] "demo" _ _ header code
  have spelled : String.ofList (Text.lowercaseAscii "DEMO".toList) = "demo" := by decide
  simp only [latest?, spelled, and_self, decide_true, List.find?_cons_of_pos, Option.map_some,
    Option.some.injEq] at latest
  subst latest
  exact ⟨after.now, _, second, _, _, obstructed_bare, whole, generated, header, code, same⟩

end Obstructed
end PetriCode.Files
