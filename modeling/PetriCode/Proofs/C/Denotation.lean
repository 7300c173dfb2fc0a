import PetriCode.Naming.NameTable
import PetriCode.Proofs.C.Spelling
import PetriCode.Proofs.Text.Bytes

/-! What the texts in an array of names denote. Each name stands on a line of its own as one literal, which
is printable ASCII whatever the name is and denotes the bytes of the name in UTF-8. What stands behind
it has no part in that: no escape goes on into it, no trigraph and no joined line begins in the
literal. So the literals of different names are different. -/
namespace PetriCode.C

def IsPrintable (c : Char) : Prop := 0x20 ≤ c.toNat ∧ c.toNat ≤ 0x7E

instance (c : Char) : Decidable (IsPrintable c) := inferInstanceAs (Decidable (_ ∧ _))

theorem isPrintable_octalDigit (n : Nat) : IsPrintable (octalDigit n) := by
  have digits : ∀ m < 8, IsPrintable (Char.ofNat ('0'.toNat + m)) := by decide
  exact digits _ (Nat.mod_lt _ (by decide))

theorem isPrintable_escape (byte : UInt8) : ∀ c ∈ escape byte, IsPrintable c := by
  simp only [escape]
  split_ifs with marked printable
  · intro c member
    obtain rfl | rfl := List.mem_pair.1 member
    · decide
    · obtain same | same | same := marked <;> rw [same] <;> decide
  · refine List.forall_mem_singleton.2 ?_
    rwa [IsPrintable, toNat_ofNat_byte]
  · have digit := isPrintable_octalDigit
    simp only [octal, List.forall_mem_cons]
    exact ⟨by decide, digit _, digit _, digit _, List.forall_mem_nil _⟩

theorem isPrintable_literal (text : String) : ∀ c ∈ (literal text).toList, IsPrintable c := by
  have quoted : (literal text).toList = '"' :: ((bytes text).flatMap escape ++ ['"']) := by
    simp [literal]
  rw [quoted]
  intro c member
  rw [List.mem_cons, List.mem_append, List.mem_singleton, List.mem_flatMap] at member
  obtain rfl | ⟨byte, _, inside⟩ | rfl := member
  · decide
  · exact isPrintable_escape byte c inside
  · decide

theorem Solid.no_questions {text : List Char} (solid : Solid text) : ¬ ['?', '?'] <:+: text := by
  intro inside
  have pair := solid.calm.infix inside
  exact (List.isChain_cons_cons.1 pair).1.1 ⟨rfl, rfl⟩

/-- A text written as one literal: whatever stands behind it, it is read as one token of its own that
denotes the text in UTF-8, and it is printable ASCII on one line without two question marks side by
side. -/
structure Quotes (written : List Char) (text : String) : Prop where
  whole : ∀ rest, ∃ values, tokens (logical (written ++ rest)) =
    .literal values :: tokens (logical rest) ∧ values.toByteArray = text.toUTF8
  printable : ∀ c ∈ written, IsPrintable c
  unbroken : '\n' ∉ written ∧ '\r' ∉ written
  questions : ¬ ['?', '?'] <:+: written

theorem Quotes.unique {written : List Char} {text other : String} (quotes : Quotes written text)
    (again : Quotes written other) : text = other := by
  obtain ⟨values, read, same⟩ := quotes.whole []
  obtain ⟨others, reread, equal⟩ := again.whole []
  rw [read] at reread
  obtain ⟨rfl, _⟩ := by simpa using reread
  exact String.toByteArray_inj.1 (same.symm.trans equal)

theorem quotes_literal (text : String) : Quotes (literal text).toList text where
  whole := by
    intro rest
    refine ⟨bytes text, ?_, toByteArray_bytes text⟩
    rw [(solid_literal text).logical_append]
    exact tokens_literal text _
  printable := isPrintable_literal text
  unbroken := by
    constructor <;> exact fun member => absurd (isPrintable_literal text _ member) (by decide)
  questions := (solid_literal text).no_questions

theorem literal_inj {text other : String} : literal text = literal other ↔ text = other := by
  constructor
  · intro same
    have quotes := quotes_literal other
    rw [← same] at quotes
    exact (quotes_literal text).unique quotes
  · intro same
    rw [same]

end PetriCode.C

namespace PetriCode
open C

theorem NameTable.lines_declaration (table : NameTable) : ∃ head, table.declaration.lines =
    head :: (table.names.map fun name => "    " ++ literal name ++ ",") ++ ["\x7d;"] :=
  ⟨_, rfl⟩

/-- Every text is written as one literal that denotes it and no other text, and a table has a name at a
position exactly if the line at that position in its array holds the literal of the name. -/
theorem names_quoted (text : String) :
    Quotes (literal text).toList text ∧ (∀ other, literal other = literal text ↔ other = text) ∧
      ∀ (table : NameTable) (index : Nat), table.nameOf index = some text ↔
        table.declaration.lines[index + 1]? = some ("    " ++ literal text ++ ",") := by
  refine ⟨quotes_literal text, fun other => literal_inj, ?_⟩
  intro table index
  obtain ⟨head, lines⟩ := table.lines_declaration
  rw [lines, List.cons_append, List.getElem?_cons_succ, NameTable.nameOf]
  by_cases inside : index < table.names.length
  · rw [List.getElem?_append_left (by simpa using inside), List.getElem?_map,
      List.getElem?_eq_getElem inside]
    simp [literal_inj]
  · -- Behind the names there is the line with the closing brace.
    have closing : "\x7d;" ≠ "    " ++ literal text ++ "," := by
      intro same
      simpa using congrArg (fun line => line.toList.head?) same
    rw [List.getElem?_append_right (by simpa using inside),
      List.getElem?_eq_none (by simpa using inside)]
    refine iff_of_false (by simp) ?_
    intro listed
    exact closing (List.mem_singleton.1 (List.mem_of_getElem? listed)).symm

end PetriCode
