import Mathlib.Logic.Function.Basic
import PetriCode.Proofs.Files.Path

/-! Files laid over the entries of one directory. Staging a file, giving it another name and discarding it
change what is laid over a directory and nothing else of a tree, and as long as no directory is
covered, every path leads where it led. -/
namespace PetriCode.Files

namespace Tree

theorem lookup_filter (kept : Location → Bool) (entries : List (Location × Entry))
    (other : Location) :
    (entries.filter fun entry => kept entry.1).lookup other =
      if kept other then entries.lookup other else none := by
  induction entries with
  | nil => simp
  | cons entry entries ih =>
    obtain ⟨location, found⟩ := entry
    rw [List.filter_cons]
    by_cases same : other = location
    · subst same
      cases stays : kept other <;> simp [stays, ih]
    · have apart : (other == location) = false := beq_eq_false_iff_ne.2 same
      cases kept location <;> simp [List.lookup_cons, apart, ih]

variable {tree : Tree} {location other : Location} {entry : Entry}

theorem get?_erase (inside : location ≠ []) :
    (tree.erase location).get? other = if other = location then none else tree.get? other := by
  unfold get? erase
  rw [lookup_filter fun other => decide (other ≠ location)]
  by_cases root : other = []
  · rw [if_pos root, if_pos root, if_neg (root ▸ inside.symm)]
  · rw [if_neg root, if_neg root]
    simp

theorem get?_put (inside : location ≠ []) :
    (tree.put location entry).get? other =
      if other = location then some entry else tree.get? other := by
  by_cases same : other = location
  · subst same
    simp [get?, put, inside]
  · have apart : (other == location) = false := beq_eq_false_iff_ne.2 same
    have erased : (tree.erase location).get? other = tree.get? other := by
      rw [get?_erase inside, if_neg same]
    rw [if_neg same, ← erased]
    simp only [get?, put, List.lookup_cons, apart]

end Tree

/-- The contents of the files that are laid over a directory, by their names. -/
abbrev Sheet := String → Option ByteArray

namespace Sheet
variable {files : List (String × String)} {name : String}

/-- The sheet of some texts by their names. -/
def of (files : List (String × String)) : Sheet :=
  fun name => (files.lookup name).map String.toUTF8

theorem of_nil : of [] name = none := rfl

theorem of_cons (file : String × String) :
    of (file :: files) = Function.update (of files) file.1 (some file.2.toUTF8) := by
  funext name
  by_cases same : name = file.1
  · obtain ⟨key, text⟩ := file
    subst same
    simp [of]
  · have apart : (name == file.1) = false := beq_eq_false_iff_ne.2 same
    rw [Function.update_of_ne same, of, List.lookup_cons, apart]
    rfl

theorem of_eq_some_iff (distinct : (files.map Prod.fst).Nodup) {content : ByteArray} :
    of files name = some content ↔ ∃ text, (name, text) ∈ files ∧ content = text.toUTF8 := by
  induction files with
  | nil => simp [of_nil]
  | cons file files ih =>
    obtain ⟨absent, others⟩ := List.nodup_cons.1 distinct
    rw [of_cons]
    by_cases same : name = file.1
    · subst same
      rw [Function.update_self, Option.some.injEq]
      constructor
      · rintro rfl
        exact ⟨file.2, List.mem_cons_self, rfl⟩
      · rintro ⟨text, member, rfl⟩
        obtain again | behind := List.mem_cons.1 member
        · rw [← again]
        · exact absurd (List.mem_map_of_mem behind) absent
    · rw [Function.update_of_ne same, ih others]
      have apart : ∀ text, (name, text) ≠ file := by
        rintro text rfl
        exact same rfl
      simp [List.mem_cons, apart]

end Sheet

/-- A tree is another one with some files laid over the entries of a directory. -/
structure Tree.Overlaid (later tree : Tree) (here : Location) (sheet : Sheet) : Prop where
  inside : ∀ name, later.get? (here ++ [name]) =
    ((sheet name).map Entry.file).or (tree.get? (here ++ [name]))
  outside : ∀ location, (∀ name, location ≠ here ++ [name]) → later.get? location = tree.get? location

namespace Tree.Overlaid
variable {tree later : Tree} {here : Location} {sheet : Sheet} {name : String} {content : ByteArray}

theorem refl (tree : Tree) (here : Location) : tree.Overlaid tree here (Sheet.of []) where
  inside := fun _ => rfl
  outside := fun _ _ => rfl

theorem get?_of_some (overlaid : later.Overlaid tree here sheet) (laid : sheet name = some content) :
    later.get? (here ++ [name]) = some (.file content) := by
  rw [overlaid.inside, laid]
  rfl

theorem get?_of_none (overlaid : later.Overlaid tree here sheet) (bare : sheet name = none) :
    later.get? (here ++ [name]) = tree.get? (here ++ [name]) := by
  rw [overlaid.inside, bare]
  rfl

theorem get?_elsewhere (overlaid : later.Overlaid tree here sheet) {place : Location}
    (elsewhere : place = here → sheet name = none) :
    later.get? (place ++ [name]) = tree.get? (place ++ [name]) := by
  by_cases same : place = here
  · subst same
    exact overlaid.get?_of_none (elsewhere rfl)
  · apply overlaid.outside
    intro other equal
    exact same (List.append_inj_left' equal rfl)

theorem put (overlaid : later.Overlaid tree here sheet) (name : String) (content : ByteArray) :
    (later.put (here ++ [name]) (.file content)).Overlaid tree here
      (Function.update sheet name (some content)) where
  inside := by
    intro other
    rw [get?_put (by simp)]
    by_cases same : other = name
    · subst same
      simp
    · rw [if_neg (by simpa using same), Function.update_of_ne same, overlaid.inside]
  outside := by
    intro location apart
    rw [get?_put (by simp), if_neg (apart name), overlaid.outside location apart]

theorem erase (overlaid : later.Overlaid tree here sheet) (free : tree.get? (here ++ [name]) = none) :
    (later.erase (here ++ [name])).Overlaid tree here (Function.update sheet name none) where
  inside := by
    intro other
    rw [get?_erase (by simp)]
    by_cases same : other = name
    · subst same
      simp [free]
    · rw [if_neg (by simpa using same), Function.update_of_ne same, overlaid.inside]
  outside := by
    intro location apart
    rw [get?_erase (by simp), if_neg (apart name), overlaid.outside location apart]

/-- As long as no directory is covered, all directories are there. -/
theorem directories (overlaid : later.Overlaid tree here sheet)
    (clear : ∀ name, sheet name ≠ none → tree.get? (here ++ [name]) ≠ some .directory)
    (location : Location) (standing : tree.get? location = some .directory) :
    later.get? location = some .directory := by
  by_cases within : ∃ name, location = here ++ [name]
  · obtain ⟨name, rfl⟩ := within
    have bare : sheet name = none := by
      by_contra covered
      exact clear name covered standing
    rw [overlaid.get?_of_none bare, standing]
  · rw [overlaid.outside location (not_exists.1 within), standing]

/-- A tree with nothing laid over it holds the same everywhere. -/
theorem get?_eq (overlaid : later.Overlaid tree here (Sheet.of [])) (location : Location) :
    later.get? location = tree.get? location := by
  by_cases within : ∃ name, location = here ++ [name]
  · obtain ⟨name, rfl⟩ := within
    exact overlaid.get?_of_none rfl
  · exact overlaid.outside location (not_exists.1 within)

end Tree.Overlaid
end PetriCode.Files
