import Mathlib.Data.List.Basic
import Mathlib.Data.List.TakeWhile
import PetriCode.Text.Blank

/-! Trimming. All that it takes away is white space, and at the ends of what is left there is none. White space
behind a text does not change what is left of it, and anything else does. -/
namespace PetriCode.Text

theorem trimEnd_append_blanks (text : List Char) {blanks : List Char}
    (blank : ∀ c ∈ blanks, isBlank c) : trimEnd (text ++ blanks) = trimEnd text := by
  unfold trimEnd
  rw [List.reverse_append, List.dropWhile_append_of_pos]
  simpa using blank

theorem trimEnd_eq_self {text : List Char} (solid : ∀ c ∈ text.getLast?, isBlank c = false) :
    trimEnd text = text := by
  unfold trimEnd
  cases reversed : text.reverse with
  | nil => simpa using reversed.symm
  | cons last rest =>
    have ends : last ∈ text.getLast? := by
      rw [← List.head?_reverse, reversed]
      rfl
    rw [List.dropWhile_cons_of_neg (by simp [solid last ends]), ← reversed, List.reverse_reverse]

theorem trimEnd_isPrefix (text : List Char) : trimEnd text <+: text := by
  rw [trimEnd, ← List.reverse_suffix, List.reverse_reverse]
  exact List.dropWhile_suffix isBlank

theorem trim_padded {before core after : List Char} (blankBefore : ∀ c ∈ before, isBlank c)
    (blankAfter : ∀ c ∈ after, isBlank c) (head : ∀ c ∈ core.head?, isBlank c = false)
    (last : ∀ c ∈ core.getLast?, isBlank c = false) : trim (before ++ core ++ after) = core := by
  unfold trim
  rw [List.append_assoc, List.dropWhile_append_of_pos (by simpa using blankBefore)]
  cases core with
  | nil =>
    rw [List.nil_append, List.dropWhile_eq_nil_iff.2 blankAfter]
    rfl
  | cons first rest =>
    have firstSolid : isBlank first = false := head first rfl
    rw [List.cons_append, List.dropWhile_cons_of_neg (by simp [firstSolid]), ← List.cons_append,
      trimEnd_append_blanks _ blankAfter, trimEnd_eq_self last]

/-- White space is all that trimming takes away. -/
theorem exists_padding (text : List Char) :
    ∃ before after, text = before ++ trim text ++ after ∧ (∀ c ∈ before, isBlank c) ∧
      ∀ c ∈ after, isBlank c := by
  let core := text.dropWhile isBlank
  refine ⟨text.takeWhile isBlank, (core.reverse.takeWhile isBlank).reverse, ?_,
    fun c member => List.mem_takeWhile_imp member, ?_⟩
  · have split : trim text ++ (core.reverse.takeWhile isBlank).reverse = core := by
      unfold trim trimEnd
      rw [← List.reverse_append, List.takeWhile_append_dropWhile, List.reverse_reverse]
    rw [List.append_assoc, split, List.takeWhile_append_dropWhile]
  · intro c member
    exact List.mem_takeWhile_imp (List.mem_reverse.1 member)

theorem head?_dropWhile_blank (text : List Char) :
    ∀ c ∈ (text.dropWhile isBlank).head?, isBlank c = false := by
  intro c first
  have stops := List.head?_dropWhile_not isBlank text
  rw [Option.mem_def.1 first] at stops
  exact stops

theorem getLast?_trim (text : List Char) : ∀ c ∈ (trim text).getLast?, isBlank c = false := by
  intro c last
  rw [trim, trimEnd, List.getLast?_reverse] at last
  exact head?_dropWhile_blank _ c last

theorem head?_trim (text : List Char) : ∀ c ∈ (trim text).head?, isBlank c = false := by
  intro c first
  have kept : trim text <+: text.dropWhile isBlank := trimEnd_isPrefix _
  obtain ⟨rest, whole⟩ := kept
  refine head?_dropWhile_blank text c ?_
  rw [← whole, List.head?_append, Option.mem_def.1 first]
  rfl

/-- What is left of a text without the white space around it. -/
def Trimmed (text core : List Char) : Prop :=
  (∃ before after, text = before ++ core ++ after ∧ (∀ c ∈ before, isBlank c) ∧
    ∀ c ∈ after, isBlank c) ∧
  (∀ c ∈ core.head?, isBlank c = false) ∧ ∀ c ∈ core.getLast?, isBlank c = false

theorem trimmed_iff {text core : List Char} : Trimmed text core ↔ core = trim text := by
  constructor
  · rintro ⟨⟨before, after, rfl, blankBefore, blankAfter⟩, head, last⟩
    exact (trim_padded blankBefore blankAfter head last).symm
  · rintro rfl
    exact ⟨exists_padding text, head?_trim text, getLast?_trim text⟩

theorem trim_append_blanks (text : List Char) {blanks : List Char}
    (blank : ∀ c ∈ blanks, isBlank c) : trim (text ++ blanks) = trim text := by
  unfold trim
  rw [List.dropWhile_append]
  split_ifs with nothing
  · rw [List.isEmpty_iff.1 nothing, List.dropWhile_eq_nil_iff.2 blank]
  · exact trimEnd_append_blanks _ blank

theorem trimEnd_ne_nil {text : List Char} (solid : ∃ c ∈ text, isBlank c = false) :
    trimEnd text ≠ [] := by
  obtain ⟨c, member, visible⟩ := solid
  intro nothing
  rw [trimEnd, List.reverse_eq_nil_iff, List.dropWhile_eq_nil_iff] at nothing
  rw [nothing c (List.mem_reverse.2 member)] at visible
  cases visible

theorem trimEnd_append_solid (text : List Char) {more : List Char}
    (solid : ∃ c ∈ more, isBlank c = false) : trimEnd (text ++ more) = text ++ trimEnd more := by
  have kept : ((more.reverse.dropWhile isBlank).isEmpty) = false := by
    simpa [trimEnd] using trimEnd_ne_nil solid
  rw [trimEnd, List.reverse_append, List.dropWhile_append, kept]
  simp [trimEnd]

theorem exists_solid_dropWhile {text : List Char} (solid : ∃ c ∈ text, isBlank c = false) :
    ∃ c ∈ text.dropWhile isBlank, isBlank c = false := by
  obtain ⟨c, member, visible⟩ := solid
  have split := List.takeWhile_append_dropWhile (p := isBlank) (l := text)
  rw [← split, List.mem_append] at member
  refine ⟨c, member.resolve_left fun early => ?_, visible⟩
  rw [List.mem_takeWhile_imp early] at visible
  cases visible

/-- More than white space behind a text is part of what is left without the white space around it. -/
theorem trim_append_solid (text : List Char) {more : List Char}
    (solid : ∃ c ∈ more, isBlank c = false) :
    ∃ rest ≠ [], trim (text ++ more) = trim text ++ rest := by
  unfold trim
  rw [List.dropWhile_append]
  split_ifs with nothing
  · rw [List.isEmpty_iff.1 nothing]
    exact ⟨_, trimEnd_ne_nil (exists_solid_dropWhile solid), rfl⟩
  · obtain ⟨blanks, whole⟩ := trimEnd_isPrefix (text.dropWhile isBlank)
    refine ⟨blanks ++ trimEnd more, ?_, ?_⟩
    · exact List.append_ne_nil_of_right_ne_nil _ (trimEnd_ne_nil solid)
    · rw [trimEnd_append_solid _ solid, ← List.append_assoc, whole]

theorem solid_or_blank (text : List Char) :
    (∃ c ∈ text, isBlank c = false) ∨ ∀ c ∈ text, isBlank c := by
  by_cases blank : ∀ c ∈ text, isBlank c
  · exact .inr blank
  · push Not at blank
    obtain ⟨c, member, visible⟩ := blank
    exact .inl ⟨c, member, by simpa using visible⟩

/-- A text that trimming leaves as it is, and not an empty one. -/
structure Tidy (text : String) : Prop where
  inhabited : text ≠ ""
  head : ∀ c ∈ text.toList.head?, isBlank c = false
  last : ∀ c ∈ text.toList.getLast?, isBlank c = false

/-- A text written with any white space around it. -/
def Padded (core text : String) : Prop :=
  ∃ before after, text.toList = before ++ core.toList ++ after ∧ (∀ c ∈ before, isBlank c) ∧
    ∀ c ∈ after, isBlank c

theorem Padded.refl (text : String) : Padded text text := ⟨[], [], by simp, by simp, by simp⟩

theorem tidy_of_visible {text : String} (inhabited : text.toList ≠ [])
    (visible : ∀ c ∈ text.toList, isBlank c = false) : Tidy text where
  inhabited := by simpa using inhabited
  head c first := visible c (List.mem_of_head? first)
  last c last := visible c (List.mem_of_getLast? last)

end PetriCode.Text
