import PetriCode.Files.Install
import PetriCode.Proofs.Files.Overlay

/-! What the disk of a tree does while files are installed in a directory. At every moment the tree is the
one from the beginning with some files laid over the directory, and each of these is a whole file
under its final name or a file under a name for staged files that was free. Staging, renaming and
discarding keep it so. -/
namespace PetriCode.Files
open PetriCode.Files.Tree

/-- The trees that a disk has been, with the one that it is. -/
def History.trees (history : History) : List Tree := history.now :: history.past

/-- A file may be laid over a directory: it is one of those to be installed and covers no directory, or
it is staged under a name that was free. -/
def Permitted (tree : Tree) (here : Location) (files : List (String × String)) (name : String)
    (content : ByteArray) : Prop :=
  (∃ text, (name, text) ∈ files ∧ content = text.toUTF8 ∧
      tree.get? (here ++ [name]) ≠ some .directory) ∨
    (∃ number, name = stagedName number) ∧ tree.get? (here ++ [name]) = none

/-- A tree with permitted files laid over a directory. -/
structure Tree.Covered (later tree : Tree) (here : Location) (files : List (String × String))
    (sheet : Sheet) : Prop where
  overlaid : later.Overlaid tree here sheet
  permitted : ∀ name content, sheet name = some content → Permitted tree here files name content

/-- How far an installation has come in a directory. -/
structure Underway (tree : Tree) (home : Location) (directory : String) (here : Location)
    (files : List (String × String)) (history : History) (sheet : Sheet) : Prop where
  located : tree.locate home directory = .ok here
  now : history.now.Covered tree here files sheet
  past : ∀ seen ∈ history.past, ∃ sheet, seen.Covered tree here files sheet

namespace Tree.Covered
variable {tree later : Tree} {home here : Location} {directory : String}
  {files : List (String × String)} {sheet : Sheet} {name text : String}

theorem locate (covered : later.Covered tree here files sheet)
    (located : tree.locate home directory = .ok here) :
    later.locate home directory = .ok here := by
  apply walk_of_directories _ located
  apply covered.overlaid.directories
  intro name laid
  obtain ⟨content, found⟩ := Option.ne_none_iff_exists'.1 laid
  obtain ⟨_, _, _, clear⟩ | ⟨_, free⟩ := covered.permitted name content found
  · exact clear
  · rw [free]
    simp

theorem staged (covered : later.Covered tree here files sheet) {number : Nat}
    (free : tree.get? (here ++ [stagedName number]) = none) (content : ByteArray) :
    (later.put (here ++ [stagedName number]) (.file content)).Covered tree here files
      (Function.update sheet (stagedName number) (some content)) where
  overlaid := covered.overlaid.put _ content
  permitted := by
    intro other found laid
    by_cases same : other = stagedName number
    · subst same
      exact .inr ⟨⟨number, rfl⟩, free⟩
    · rw [Function.update_of_ne same] at laid
      exact covered.permitted other found laid

theorem discarded (covered : later.Covered tree here files sheet)
    (free : tree.get? (here ++ [name]) = none) :
    (later.erase (here ++ [name])).Covered tree here files (Function.update sheet name none) where
  overlaid := covered.overlaid.erase free
  permitted := by
    intro other found laid
    by_cases same : other = name
    · subst same
      simp at laid
    · rw [Function.update_of_ne same] at laid
      exact covered.permitted other found laid

theorem placed (covered : later.Covered tree here files sheet) (listed : (name, text) ∈ files)
    (clear : tree.get? (here ++ [name]) ≠ some .directory) :
    (later.put (here ++ [name]) (.file text.toUTF8)).Covered tree here files
      (Function.update sheet name (some text.toUTF8)) where
  overlaid := covered.overlaid.put name text.toUTF8
  permitted := by
    intro other found laid
    by_cases same : other = name
    · subst same
      rw [Function.update_self, Option.some.injEq] at laid
      exact .inl ⟨text, listed, laid.symm, clear⟩
    · rw [Function.update_of_ne same] at laid
      exact covered.permitted other found laid

end Tree.Covered

namespace Underway
variable {tree : Tree} {home here : Location} {directory : String} {files : List (String × String)}
  {history : History} {sheet : Sheet}

theorem become (underway : Underway tree home directory here files history sheet) {later : Tree}
    {next : Sheet} (covered : later.Covered tree here files next) :
    Underway tree home directory here files (history.become later) next where
  located := underway.located
  now := covered
  past := List.forall_mem_cons.2 ⟨⟨sheet, underway.now⟩, underway.past⟩

theorem start (located : tree.locate home directory = .ok here) :
    Underway tree home directory here files (.start tree) (Sheet.of []) where
  located := located
  now := ⟨.refl tree here, by simp [Sheet.of_nil]⟩
  past := by simp [History.start]

theorem stage (underway : Underway tree home directory here files history sheet)
    (admitted : admitPath (join (fromRoot home directory) (stagedName 0)) = .ok ())
    (content : ByteArray) :
    ∃ number after, (treeDisk home).stage directory content history =
        (.ok (stagedName number), after) ∧
      sheet (stagedName number) = none ∧ tree.get? (here ++ [stagedName number]) = none ∧
      Underway tree home directory here files after
        (Function.update sheet (stagedName number) (some content)) := by
  obtain ⟨⟨number, name⟩, free⟩ := get?_freshName history.now here
  rw [name] at free
  have bare : sheet (stagedName number) = none ∧
      tree.get? (here ++ [stagedName number]) = none := by
    rw [underway.now.overlaid.inside] at free
    simpa using free
  have place : history.now.stagingPlace home directory = .ok here := by
    rw [stagingPlace, admitted]
    exact underway.now.locate underway.located
  have created := underway.become (underway.now.staged bare.2 .empty)
  have written := created.become (created.now.staged bare.2 content)
  rw [Function.update_idem] at written
  refine ⟨number, _, ?_, bare.1, bare.2, written⟩
  simp only [treeDisk, place, name]
  rfl

variable {source target text : String}

/-- A staged file takes the place of whatever is no directory. -/
theorem rename (underway : Underway tree home directory here files history sheet)
    (staged : sheet source = some text.toUTF8) (free : tree.get? (here ++ [source]) = none)
    (listed : (target, text) ∈ files) (bare : sheet target = none)
    (path : admitPath (join directory target) = .ok ()) (name : admitName target = .ok ())
    (clear : tree.get? (here ++ [target]) ≠ some .directory) :
    ∃ after, (treeDisk home).rename directory source target history = (.ok (), after) ∧
      Underway tree home directory here files after
        (Function.update (Function.update sheet source none) target (some text.toUTF8)) := by
  have held := underway.now.overlaid.get?_of_some staged
  have standing := underway.now.overlaid.get?_of_none bare
  have moved : history.now.rename home directory source target =
      .ok ((history.now.erase (here ++ [source])).put (here ++ [target]) (.file text.toUTF8)) := by
    unfold Tree.rename
    rw [path, underway.now.locate underway.located, name]
    change history.now.move (here ++ [source]) (here ++ [target]) = _
    unfold move
    rw [held, standing]
    cases found : tree.get? (here ++ [target]) with
    | none => rfl
    | some entry =>
      cases entry with
      | file content => rfl
      | directory => exact absurd found clear
  refine ⟨_, ?_, underway.become ((underway.now.discarded free).placed listed clear)⟩
  simp only [treeDisk, moved]

theorem rename_refused (underway : Underway tree home directory here files history sheet)
    (staged : sheet source = some text.toUTF8) (bare : sheet target = none)
    (path : admitPath (join directory target) = .ok ()) (name : admitName target = .ok ())
    (covers : tree.get? (here ++ [target]) = some .directory) :
    (treeDisk home).rename directory source target history = (.error .isDirectory, history) := by
  have held := underway.now.overlaid.get?_of_some staged
  have standing := underway.now.overlaid.get?_of_none bare
  have stopped : history.now.rename home directory source target = .error .isDirectory := by
    unfold Tree.rename
    rw [path, underway.now.locate underway.located, name]
    change history.now.move (here ++ [source]) (here ++ [target]) = _
    unfold move
    rw [held, standing, covers]
  simp only [treeDisk, stopped]

theorem rename_unadmitted (underway : Underway tree home directory here files history sheet)
    {fault : Fault}
    (refused : (admitPath (join directory target) >>= fun _ => admitName target) = .error fault) :
    (treeDisk home).rename directory source target history = (.error fault, history) := by
  have stopped : history.now.rename home directory source target = .error fault := by
    unfold Tree.rename
    rw [underway.now.locate underway.located]
    cases path : admitPath (join directory target) with
    | error other =>
      rw [path] at refused
      cases refused
      rfl
    | ok _ =>
      rw [path] at refused
      change admitName target = .error fault at refused
      simp only [bind, Except.bind, refused]
  simp only [treeDisk, stopped]

theorem discard (underway : Underway tree home directory here files history sheet)
    (free : tree.get? (here ++ [source]) = none) :
    ∃ after, (treeDisk home).discard directory source history = ((), after) ∧
      Underway tree home directory here files after (Function.update sheet source none) := by
  refine ⟨_, ?_, underway.become (underway.now.discarded free)⟩
  simp only [treeDisk, underway.now.locate underway.located]

end Underway
end PetriCode.Files
