import PetriCode.Files.Tree
import PetriCode.Proofs.Outcome

/-! The path of a file in a directory. A plain name joined to the path of a directory leads one step
further than the directory, whether the path of the directory is empty, ends in a slash or does
neither. What a walk finds depends on the directories of a tree alone. -/
namespace PetriCode.Files

/-- A name that is one step of a path and leads neither back nor nowhere. -/
structure IsPlain (name : String) : Prop where
  inhabited : name ≠ ""
  undotted : name.toList.head? ≠ some '.'
  undivided : '/' ∉ name.toList

namespace Tree
variable {tree : Tree} {home here there : Location} {directory path name : String}

theorem follow_plain (plain : IsPlain name) : follow here name = here ++ [name] := by
  have dot : name ≠ "." := by
    rintro rfl
    exact plain.undotted rfl
  have dots : name ≠ ".." := by
    rintro rfl
    exact plain.undotted rfl
  rw [follow, if_neg (not_or.2 ⟨plain.inhabited, dot⟩), if_neg dots]

theorem names_divided (front back : String) :
    names (front ++ "/" ++ back) = names front ++ names back := by
  have letters : (front ++ "/" ++ back).toList = front.toList ++ '/' :: back.toList := by simp
  rw [names, letters, List.splitOn, List.splitOnP_append_cons _ _ (by rfl), List.map_append]
  rfl

theorem names_plain (plain : IsPlain name) : names name = [name] := by
  have whole : ∀ c ∈ name.toList, (c == '/') = false := by
    intro c member
    rw [beq_eq_false_iff_ne]
    rintro rfl
    exact plain.undivided member
  rw [names, List.splitOn, List.splitOnP_eq_singleton whole, List.map_singleton,
    String.ofList_toList]

theorem join_eq (path name : String) :
    path = "" ∧ join path name = name ∨
      (∃ front, path = front ++ "/" ∧ join path name = front ++ "/" ++ name) ∨
      join path name = path ++ "/" ++ name := by
  unfold join
  split
  · rename_i closed
    obtain rfl | slash := closed
    · exact .inl ⟨rfl, by simp⟩
    · right; left
      obtain ⟨front, letters⟩ := List.getLast?_eq_some_iff.1 slash
      have same : path = String.ofList front ++ "/" := by
        rw [← String.toList_inj, letters]
        simp
      exact ⟨String.ofList front, same, by rw [same]⟩
  · exact .inr (.inr rfl)

/-- The steps to a file are those to its directory, an empty last one aside, and then its name. -/
theorem names_join (plain : IsPlain name) (path : String) :
    ∃ steps, (names path = steps ∨ names path = steps ++ [""]) ∧
      names (join path name) = steps ++ [name] := by
  have nothing : names "" = [""] := by decide
  obtain ⟨rfl, same⟩ | ⟨front, rfl, same⟩ | same := join_eq path name
  · exact ⟨[], .inr nothing, by rw [same, names_plain plain]; rfl⟩
  · refine ⟨names front, .inr ?_, by rw [same, names_divided, names_plain plain]⟩
    have ending := names_divided front ""
    rwa [String.append_empty, nothing] at ending
  · exact ⟨names path, .inl rfl, by rw [same, names_divided, names_plain plain]⟩

/-- What stands between a path and a name that is joined to it. -/
def divider (path : String) : String :=
  if path = "" ∨ path.toList.getLast? = some '/' then "" else "/"

theorem join_eq_divider (path name : String) : join path name = path ++ divider path ++ name := by
  unfold join divider
  split <;> simp

theorem divider_append {front back : String} (inhabited : back ≠ "") :
    divider (front ++ back) = divider back := by
  have letters : back.toList ≠ [] := by simpa using inhabited
  rw [divider, divider, String.toList_append, List.getLast?_append_of_ne_nil _ letters]
  simp [inhabited]

theorem divider_closed (path : String) : divider (path ++ divider path) = "" := by
  by_cases closed : path = "" ∨ path.toList.getLast? = some '/'
  · simp [divider, closed]
  · have slashed : divider path = "/" := if_neg closed
    rw [slashed, divider_append (by decide)]
    decide

theorem join_join (base directory name : String) :
    join base (join directory name) = join (join base directory) name := by
  simp only [join_eq_divider]
  by_cases empty : directory = ""
  · subst empty
    have nothing : divider "" = "" := by decide
    simp only [nothing, String.append_empty, String.empty_append, divider_closed]
  · rw [divider_append empty]
    simp only [String.append_assoc]

theorem head?_join {directory : String} (plain : IsPlain name) :
    (join directory name).toList.head? = some '/' ↔ directory.toList.head? = some '/' := by
  rw [join_eq_divider, String.append_assoc, String.toList_append]
  by_cases empty : directory = ""
  · subst empty
    have undivided : name.toList.head? ≠ some '/' := fun first =>
      plain.undivided (List.mem_of_head? first)
    simpa [divider] using undivided
  · have letters : directory.toList ≠ [] := by simpa using empty
    rw [List.head?_append_of_ne_nil _ letters]

theorem fromRoot_join (plain : IsPlain name) :
    fromRoot home (join directory name) = join (fromRoot home directory) name := by
  unfold fromRoot
  by_cases rooted : directory.toList.head? = some '/'
  · rw [if_pos rooted, if_pos ((head?_join plain).2 rooted)]
  · rw [if_neg rooted, if_neg (mt (head?_join plain).1 rooted), join_join]

theorem enter_eq_ok_iff :
    tree.enter here name = .ok there ↔
      admitName name = .ok () ∧ tree.get? (follow here name) = some .directory ∧
        there = follow here name := by
  unfold enter lookUp
  cases admitName name with
  | error fault => simp [bind, Except.bind]
  | ok _ =>
    cases tree.get? (follow here name) with
    | none => simp [bind, Except.bind, throw, throwThe, MonadExceptOf.throw]
    | some entry =>
      cases entry with
      | file content => simp [bind, Except.bind, pure, Except.pure, throw, throwThe, MonadExceptOf.throw]
      | directory => simp [bind, Except.bind, pure, Except.pure, eq_comm]

theorem enter_nothing (standing : tree.get? here = some .directory) :
    tree.enter here "" = .ok here :=
  enter_eq_ok_iff.2 ⟨by decide, standing, rfl⟩

/-- A walk that begins in a directory ends in one. -/
theorem get?_of_walk {steps : List String} (standing : tree.get? here = some .directory)
    (walked : steps.foldlM tree.enter here = .ok there) : tree.get? there = some .directory := by
  induction steps generalizing here with
  | nil =>
    cases walked
    exact standing
  | cons name steps ih =>
    rw [List.foldlM_cons] at walked
    obtain ⟨next, entered, further⟩ := bind_eq_ok_iff.1 walked
    obtain ⟨_, found, rfl⟩ := enter_eq_ok_iff.1 entered
    exact ih found further

theorem get?_root (tree : Tree) : tree.get? [] = some .directory := rfl

/-- A walk leads to the same place in every tree that has the same directories. -/
theorem walk_of_directories {later : Tree} {steps : List String}
    (kept : ∀ location, tree.get? location = some .directory →
      later.get? location = some .directory)
    (walked : steps.foldlM tree.enter here = .ok there) :
    steps.foldlM later.enter here = .ok there := by
  induction steps generalizing here with
  | nil => exact walked
  | cons name steps ih =>
    rw [List.foldlM_cons] at walked ⊢
    obtain ⟨next, entered, further⟩ := bind_eq_ok_iff.1 walked
    obtain ⟨admitted, found, rfl⟩ := enter_eq_ok_iff.1 entered
    exact bind_eq_ok_iff.2
      ⟨_, enter_eq_ok_iff.2 ⟨admitted, kept _ found, rfl⟩, ih further⟩

/-- The walk to a file goes through its directory. -/
theorem walk_join (tree : Tree) (home : Location) (directory : String) (plain : IsPlain name) :
    ∃ steps, way home (join directory name) = steps ++ [name] ∧
      steps.foldlM tree.enter [] = tree.locate home directory := by
  obtain ⟨steps, listed, joined⟩ := names_join plain (fromRoot home directory)
  refine ⟨steps, by rw [way, fromRoot_join plain, joined], ?_⟩
  unfold locate way
  obtain same | same := listed
  · rw [same]
  · rw [same, List.foldlM_append]
    cases walked : steps.foldlM tree.enter [] with
    | error fault => rfl
    | ok there =>
      have standing := get?_of_walk tree.get?_root walked
      have stays : [""].foldlM tree.enter there = .ok there := by
        rw [List.foldlM_cons, enter_nothing standing]
        rfl
      exact stays.symm

theorem locate_join (plain : IsPlain name) :
    tree.locate home (join directory name) = .ok there ↔
      ∃ here, tree.locate home directory = .ok here ∧ admitName name = .ok () ∧
        tree.get? (here ++ [name]) = some .directory ∧ there = here ++ [name] := by
  obtain ⟨steps, joined, walked⟩ := walk_join tree home directory plain
  have last (here : Location) : [name].foldlM tree.enter here = tree.enter here name := by
    rw [List.foldlM_cons]
    cases tree.enter here name <;> rfl
  rw [locate, joined, List.foldlM_append, walked, bind_eq_ok_iff]
  simp only [last, enter_eq_ok_iff, follow_plain plain]

/-- The file that stands under a plain name in a directory is what is read under its path. -/
theorem read_join (plain : IsPlain name) (path : admitPath (join directory name) = .ok ())
    (admitted : admitName name = .ok ()) (located : tree.locate home directory = .ok here)
    {content : ByteArray} (standing : tree.get? (here ++ [name]) = some (.file content)) :
    tree.read home (join directory name) = .ok content := by
  obtain ⟨steps, joined, walked⟩ := walk_join tree home directory plain
  have inhabited : join directory name ≠ "" := by
    intro empty
    rw [join_eq_divider, String.append_eq_empty_iff] at empty
    exact plain.inhabited empty.2
  have found : tree.lookUp here name = .ok (.file content) := by
    unfold lookUp
    rw [admitted, follow_plain plain, standing]
    rfl
  unfold read
  simp only [if_neg inhabited, path, joined, List.dropLast_concat, walked, located,
    List.getLast?_concat, Option.getD_some]
  change (tree.lookUp here name >>= _) = _
  rw [found]
  rfl

end Tree
end PetriCode.Files
