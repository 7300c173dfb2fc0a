import PetriCode.Files.Disk

/-! Trees of files and directories, and the disk that such a tree is to a program that runs in one
of its directories. A path is walked name by name through directories that exist, from the root if
it begins with a slash and from the program's directory if not. Names and paths have a longest
length in bytes. The disk remembers every tree that it has been, so that one can tell what others
saw meanwhile. -/
namespace PetriCode.Files

/-- Where something stands in a tree: the names on the way there from the root. -/
abbrev Location := List String

inductive Entry
  | file (content : ByteArray)
  | directory

structure Tree where
  entries : List (Location × Entry)

namespace Tree

def empty : Tree := ⟨[]⟩

/-- What stands at a location. The root is a directory. -/
def get? (tree : Tree) (location : Location) : Option Entry :=
  if location = [] then some .directory else tree.entries.lookup location

def erase (tree : Tree) (location : Location) : Tree :=
  ⟨tree.entries.filter fun entry => entry.1 ≠ location⟩

def put (tree : Tree) (location : Location) (entry : Entry) : Tree :=
  ⟨(location, entry) :: (tree.erase location).entries⟩

/-- Refuses a name of more than 255 bytes. -/
def admitName (name : String) : Except Fault Unit :=
  if name.utf8ByteSize ≤ 255 then .ok () else .error .nameTooLong

/-- Refuses a path with a NUL, which no path can hold, and one of more than 4095 bytes. -/
def admitPath (path : String) : Except Fault Unit :=
  if '\x00' ∈ path.toList then .error .nulInPath
  else if path.utf8ByteSize ≤ 4095 then .ok ()
  else .error .nameTooLong

/-- Where a name in a path leads from a location. The root lies in itself. -/
def follow (here : Location) (name : String) : Location :=
  if name = "" ∨ name = "." then here
  else if name = ".." then here.dropLast
  else here ++ [name]

def lookUp (tree : Tree) (here : Location) (name : String) : Except Fault Entry := do
  admitName name
  match tree.get? (follow here name) with
  | some entry => return entry
  | none => throw .notFound

def enter (tree : Tree) (here : Location) (name : String) : Except Fault Location := do
  match ← tree.lookUp here name with
  | .directory => return follow here name
  | .file _ => throw .notDirectory

/-- A path as one from the root, for a program that runs at a location. -/
def fromRoot (home : Location) (path : String) : String :=
  if path.toList.head? = some '/' then path else join ("/" ++ "/".intercalate home) path

def names (path : String) : List String :=
  (path.toList.splitOn '/').map String.ofList

def way (home : Location) (path : String) : List String := names (fromRoot home path)

def locate (tree : Tree) (home : Location) (path : String) : Except Fault Location :=
  (way home path).foldlM tree.enter []

/-- The content of the file that a path leads to. The empty path leads nowhere. -/
def read (tree : Tree) (home : Location) (path : String) : Except Fault ByteArray := do
  if path = "" then throw .notFound
  admitPath path
  let steps := way home path
  let here ← steps.dropLast.foldlM tree.enter []
  match ← tree.lookUp here (steps.getLast?.getD "") with
  | .file content => return content
  | .directory => throw .isDirectory

/-- The names for staged files, in the order in which they are tried. They have ten bytes as long as
there are fewer than 900000 of them. -/
def stagedName (number : Nat) : String :=
  ".tmp" ++ String.ofList (Nat.toDigits 10 (100000 + number))

theorem stagedName_inj {i j : Nat} (same : stagedName i = stagedName j) : i = j := by
  have digits := String.ofList_inj.1 (String.append_right_inj _ |>.1 same)
  have number := congrArg (Nat.ofDigitChars 10 · 0) digits
  simp only [Nat.ofDigitChars_toDigits (by decide : 1 < 10) (by decide)] at number
  exact Nat.add_left_cancel number

def freshName (tree : Tree) (here : Location) : String :=
  let candidates := (List.range (tree.entries.length + 1)).map stagedName
  (candidates.find? fun name => (tree.get? (here ++ [name])).isNone).getD ""

/-- Nothing has the name for a staged file, which is one of the candidates: there are more of them
than entries. -/
theorem get?_freshName (tree : Tree) (here : Location) :
    (∃ number, tree.freshName here = stagedName number) ∧
      tree.get? (here ++ [tree.freshName here]) = none := by
  have isFree (name : String) :
      (tree.get? (here ++ [name])).isNone = true ∨
        here ++ [name] ∈ tree.entries.map (·.1) := by
    rcases h : tree.get? (here ++ [name]) with _ | entry
    · exact .inl rfl
    · right
      rw [get?, if_neg (by simp)] at h
      obtain ⟨pair, isMember, isKey⟩ := List.lookup_isSome_iff.1 (Option.isSome_of_eq_some h)
      exact List.mem_map.2 ⟨pair, isMember, (eq_of_beq isKey).symm⟩
  rcases h : ((List.range (tree.entries.length + 1)).map stagedName).find? fun name =>
      (tree.get? (here ++ [name])).isNone with _ | name
  · exfalso
    have taken := List.find?_eq_none.1 h
    have distinct : (((List.range (tree.entries.length + 1)).map stagedName).map
        fun name => here ++ [name]).Nodup := by
      rw [List.map_map]
      refine List.Pairwise.map _ (fun i j different same => different ?_) List.nodup_range
      exact stagedName_inj (by simpa using same)
    have filed : (((List.range (tree.entries.length + 1)).map stagedName).map
        fun name => here ++ [name]) ⊆ tree.entries.map (·.1) := fun location found => by
      obtain ⟨name, isCandidate, rfl⟩ := List.mem_map.1 found
      exact (isFree name).resolve_left (taken name isCandidate)
    have many := distinct.length_le_of_subset filed
    simp only [List.length_map, List.length_range] at many
    exact Nat.not_succ_le_self _ many
  · rw [freshName, h]
    have isFound := List.find?_some h
    obtain ⟨number, _, isCandidate⟩ := List.mem_map.1 (List.mem_of_find?_eq_some h)
    exact ⟨⟨number, isCandidate.symm⟩, Option.isNone_iff_eq_none.1 isFound⟩

/-- The location of a directory in which a file can be staged. The file's path from the root is one
that the disk takes. -/
def stagingPlace (tree : Tree) (home : Location) (directory : String) :
    Except Fault Location := do
  admitPath (join (fromRoot home directory) (stagedName 0))
  tree.locate home directory

/-- Moves what stands at one location to another, where no directory may stand. -/
def move (tree : Tree) (source target : Location) : Except Fault Tree :=
  match tree.get? source, tree.get? target with
  | none, _ => .error .notFound
  | _, some .directory => .error .isDirectory
  | some entry, _ => .ok ((tree.erase source).put target entry)

def rename (tree : Tree) (home : Location) (directory source target : String) :
    Except Fault Tree := do
  admitPath (join directory target)
  let here ← tree.locate home directory
  admitName target
  tree.move (here ++ [source]) (here ++ [target])

/-- Makes the directories along a way from the root, where nothing stands. -/
def makeDirectories (tree : Tree) (steps : List String) : Tree :=
  (steps.foldl (fun (tree, here) name =>
    let there := follow here name
    (if (tree.get? there).isNone then tree.put there .directory else tree, there))
    (tree, [])).1

end Tree

/-- A tree with the trees that it has been, the latest first. -/
structure History where
  now : Tree
  past : List Tree

namespace History

def start (tree : Tree) : History := ⟨tree, []⟩

def become (history : History) (tree : Tree) : History :=
  ⟨tree, history.now :: history.past⟩

end History

/-- The disk that a tree is to a program that runs at a location. A staged file is empty at first.
-/
def treeDisk (home : Location) : Disk (StateM History) where
  read path := fun history => (history.now.read home path, history)
  stage directory content := fun history =>
    match history.now.stagingPlace home directory with
    | .error fault => (.error fault, history)
    | .ok here =>
      let name := history.now.freshName here
      let created := history.now.put (here ++ [name]) (.file .empty)
      let written := created.put (here ++ [name]) (.file content)
      (.ok name, (history.become created).become written)
  rename directory source target := fun history =>
    match history.now.rename home directory source target with
    | .error fault => (.error fault, history)
    | .ok tree => (.ok (), history.become tree)
  discard directory name := fun history =>
    match history.now.locate home directory with
    | .error _ => ((), history)
    | .ok here => ((), history.become (history.now.erase (here ++ [name])))

end PetriCode.Files
