import PetriCode.Net.Incidence
import PetriCode.Proofs.Text.Trim

/-! The texts that denote natural numbers, said without the reader: at most one plus sign and one
or more ASCII digits, and around an inscription any white space. The reader accepts these texts as
far as the number fits in 32 bits, and nothing else. -/
namespace PetriCode.Text

namespace Numeral

/-- A text denotes the number that its digits have in base ten. -/
inductive Denotes : List Char → Nat → Prop
  | plain {digits : List Char} (inhabited : digits ≠ []) (decimal : ∀ c ∈ digits, c.isDigit) :
    Denotes digits (Nat.ofDigitChars 10 digits 0)
  | signed {digits : List Char} (inhabited : digits ≠ []) (decimal : ∀ c ∈ digits, c.isDigit) :
    Denotes ('+' :: digits) (Nat.ofDigitChars 10 digits 0)

theorem digits?_plain {digits : List Char} (inhabited : digits ≠ [])
    (decimal : ∀ c ∈ digits, c.isDigit) : digits? digits = some digits := by
  obtain ⟨first, rest, rfl⟩ := List.exists_cons_of_ne_nil inhabited
  have unsigned : first ≠ '+' := by
    rintro rfl
    exact absurd (decimal '+' (by simp)) (by decide)
  simpa [digits?, unsigned] using decimal

theorem digits?_signed {digits : List Char} (inhabited : digits ≠ [])
    (decimal : ∀ c ∈ digits, c.isDigit) : digits? ('+' :: digits) = some digits := by
  simpa [digits?, inhabited] using decimal

theorem digits?_eq_some {text digits : List Char} (found : digits? text = some digits) :
    digits ≠ [] ∧ (∀ c ∈ digits, c.isDigit) ∧ (text = digits ∨ text = '+' :: digits) := by
  unfold digits? at found
  simp only [Option.ite_none_right_eq_some, Option.some.injEq, List.all_eq_true] at found
  obtain ⟨⟨inhabited, decimal⟩, equal⟩ := found
  by_cases signed : text.head? = some '+'
  · rw [if_pos signed] at inhabited decimal equal
    subst equal
    exact ⟨inhabited, decimal, .inr (List.cons_head?_tail signed).symm⟩
  · rw [if_neg signed] at inhabited decimal equal
    subst equal
    exact ⟨inhabited, decimal, .inl rfl⟩

theorem denotes_iff {text : List Char} {value : Nat} :
    Denotes text value ↔
      ∃ digits, digits? text = some digits ∧ Nat.ofDigitChars 10 digits 0 = value := by
  constructor
  · rintro (⟨inhabited, decimal⟩ | ⟨inhabited, decimal⟩)
    · exact ⟨_, digits?_plain inhabited decimal, rfl⟩
    · exact ⟨_, digits?_signed inhabited decimal, rfl⟩
  · rintro ⟨digits, found, rfl⟩
    obtain ⟨inhabited, decimal, rfl | rfl⟩ := digits?_eq_some found
    · exact .plain inhabited decimal
    · exact .signed inhabited decimal

theorem Denotes.unique {text : List Char} {first second : Nat} (one : Denotes text first)
    (other : Denotes text second) : first = second := by
  obtain ⟨digits, found, rfl⟩ := denotes_iff.1 one
  obtain ⟨same, again, rfl⟩ := denotes_iff.1 other
  rw [found] at again
  cases again
  rfl

theorem Denotes.inhabited {text : List Char} {value : Nat} (denotes : Denotes text value) :
    text ≠ [] := by
  cases denotes with
  | plain inhabited _ => exact inhabited
  | signed _ _ => simp

theorem isBlank_eq_false_of_isDigit {c : Char} (digit : c.isDigit) : isBlank c = false := by
  rw [Char.isDigit_iff_toNat] at digit
  have zero : '0'.toNat = 48 := rfl
  have nine : '9'.toNat = 57 := rfl
  simp only [isBlank, blankRuns, List.any_cons, List.any_nil, Bool.or_false, Bool.or_eq_false_iff,
    Bool.and_eq_false_iff, decide_eq_false_iff_not]
  omega

theorem Denotes.solid {text : List Char} {value : Nat} (denotes : Denotes text value) :
    ∀ c ∈ text, isBlank c = false := by
  intro c member
  cases denotes with
  | plain _ decimal => exact isBlank_eq_false_of_isDigit (decimal c member)
  | signed _ decimal =>
    obtain rfl | digit := List.mem_cons.1 member
    · decide
    · exact isBlank_eq_false_of_isDigit (decimal c digit)

/-- Reading accepts exactly the texts that denote a number of 32 bits. -/
theorem read?_eq_some_iff {text : List Char} {value : UInt32} :
    read? text = some value ↔ Denotes text value.toNat := by
  rw [denotes_iff]
  unfold read?
  constructor
  · intro accepted
    obtain ⟨digits, found, fits⟩ := Option.bind_eq_some_iff.1 accepted
    simp only [Option.ite_none_right_eq_some, Option.some.injEq] at fits
    obtain ⟨small, rfl⟩ := fits
    exact ⟨digits, found, (UInt32.toNat_ofNat_of_lt' small).symm⟩
  · rintro ⟨digits, found, equal⟩
    simp only [found, equal, Option.bind_eq_bind, Option.bind_some]
    rw [if_pos value.toNat_lt_size, UInt32.ofNat_toNat]

theorem denotes_write (value : UInt32) : Denotes (write value).toList value.toNat := by
  have digits : ∀ c ∈ Nat.toDigits 10 value.toNat, c.isDigit := fun c member =>
    Nat.isDigit_of_mem_toDigits (by decide) (by decide) member
  have denotes := Denotes.plain Nat.toDigits_ne_nil digits
  rw [Nat.ofDigitChars_ten_toDigits] at denotes
  simpa [write] using denotes

end Numeral

/-- The numbers of 32 bits are those up to the largest one. -/
theorem exists_toNat_iff {p : Nat → Prop} :
    (∃ number : UInt32, p number.toNat) ↔ ∃ value, p value ∧ value ≤ 4294967295 := by
  constructor
  · rintro ⟨number, holds⟩
    have bound := number.toNat_lt
    exact ⟨_, holds, by omega⟩
  · rintro ⟨value, holds, bound⟩
    have number : (UInt32.ofNat value).toNat = value :=
      UInt32.toNat_ofNat_of_lt' (by unfold UInt32.size; omega)
    exact ⟨UInt32.ofNat value, by rwa [number]⟩

/-- A text denotes a number when it does so without the white space around it. -/
def Inscribes (inscription : String) (value : Nat) : Prop :=
  ∃ before core after, inscription.toList = before ++ core ++ after ∧
    (∀ c ∈ before, isBlank c) ∧ (∀ c ∈ after, isBlank c) ∧ Numeral.Denotes core value

theorem inscribes_iff {inscription : String} {value : Nat} :
    Inscribes inscription value ↔ Numeral.Denotes (trim inscription.toList) value := by
  constructor
  · rintro ⟨before, core, after, text, blankBefore, blankAfter, denotes⟩
    rw [text, trim_padded blankBefore blankAfter
      (fun c first => denotes.solid c (List.mem_of_head? first))
      (fun c last => denotes.solid c (List.mem_of_getLast? last))]
    exact denotes
  · intro denotes
    obtain ⟨before, after, text, blankBefore, blankAfter⟩ := exists_padding inscription.toList
    exact ⟨before, _, after, text, blankBefore, blankAfter, denotes⟩

theorem Inscribes.unique {inscription : String} {first second : Nat}
    (one : Inscribes inscription first) (other : Inscribes inscription second) :
    first = second :=
  (inscribes_iff.1 one).unique (inscribes_iff.1 other)

theorem exists_inscribed_iff {inscription : String} :
    (∃ weight : Weight, Inscribes inscription weight.toNat ∧ 0 < weight.toNat) ↔
      ∃ value, Inscribes inscription value ∧ 1 ≤ value ∧ value ≤ 4294967295 := by
  have weights := exists_toNat_iff (p := fun value => Inscribes inscription value ∧ 1 ≤ value)
  simp only [and_assoc] at weights
  exact weights

end PetriCode.Text

namespace PetriCode
open Text

/-- An inscription has a weight when it denotes a positive number of 32 bits. -/
theorem weightOf_eq_ok_iff {inscription : String} {weight : Weight} :
    weightOf inscription = .ok weight ↔ Inscribes inscription weight.toNat ∧ 0 < weight.toNat := by
  rw [inscribes_iff, ← Numeral.read?_eq_some_iff]
  unfold weightOf
  have positive (value : Weight) : value ≠ 0 ↔ 0 < value.toNat := by
    rw [Nat.pos_iff_ne_zero, ne_eq, ne_eq, ← UInt32.toNat_inj, UInt32.toNat_zero]
  split
  case h_1 unread => simp [unread]
  case h_2 value read =>
    rw [read, Option.some.injEq]
    by_cases zero : value = 0
    · rw [if_pos zero]
      constructor
      · rintro ⟨⟩
      · rintro ⟨same, above⟩
        exact absurd (same.symm.trans zero) ((positive weight).2 above)
    · rw [if_neg zero]
      constructor
      · rintro ⟨⟩
        exact ⟨rfl, (positive weight).1 zero⟩
      · rintro ⟨rfl, _⟩
        rfl

/-- An inscription without a weight denotes zero, or no number of 32 bits at all. -/
theorem weightOf_eq_error_iff {inscription : String} {fault : ArcFault} :
    weightOf inscription = .error fault ↔
      (fault = .zeroWeight ∧ Inscribes inscription 0) ∨
        fault = .inscription inscription ∧
          ∀ value ≤ 4294967295, ¬ Inscribes inscription value := by
  have read_iff (value : Weight) : Numeral.read? (trim inscription.toList) = some value ↔
      Inscribes inscription value.toNat := by
    rw [inscribes_iff, Numeral.read?_eq_some_iff]
  unfold weightOf
  cases read : Numeral.read? (trim inscription.toList) with
  | none =>
    have numberless : ∀ value ≤ 4294967295, ¬ Inscribes inscription value := by
      intro value bound inscribed
      obtain ⟨number, numbered⟩ := exists_toNat_iff.2 ⟨value, inscribed, bound⟩
      rw [← read_iff, read] at numbered
      cases numbered
    have nothing := numberless 0 (by decide)
    simpa [nothing, eq_comm] using fun _ => numberless
  | some value =>
    have inscribed := (read_iff value).1 read
    have numbered : ¬ ∀ value ≤ 4294967295, ¬ Inscribes inscription value := by
      obtain ⟨number, denoted, bound⟩ := exists_toNat_iff.1 ⟨value, inscribed⟩
      exact fun numberless => numberless number bound denoted
    by_cases zero : value = 0
    · subst zero
      have nothing : Inscribes inscription 0 := inscribed
      simp [numbered, nothing, eq_comm]
    · have positive : ¬ Inscribes inscription 0 := by
        intro nothing
        exact zero (UInt32.toNat_inj.1 (inscribed.unique nothing))
      simp [zero, numbered, positive]

end PetriCode
