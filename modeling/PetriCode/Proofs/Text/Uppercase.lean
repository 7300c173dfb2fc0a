import Mathlib.Data.List.Basic
import Mathlib.Tactic.IntervalCases
import PetriCode.Proofs.Text.Letter
import PetriCode.Text.Uppercase

/-! What upper case does to a text as a whole: it erases no character, leaves no lower case letter of
ASCII behind and brings in no null character. All three are read off the table of cases. -/
namespace PetriCode.Text

/-- A code point other than null and the lower case letters of ASCII that a text may contain. -/
def UpperImage (code : Nat) : Prop :=
  0 < code ∧ (code < 0x61 ∨ 0x7A < code) ∧ code.isValidChar

instance (code : Nat) : Decidable (UpperImage code) :=
  inferInstanceAs (Decidable (_ ∧ _ ∧ _))

/-- The first and the last image of a run are sound and lie on the same side of every gap. -/
def CaseRun.Sound (run : CaseRun) : Prop :=
  let final := run.image + (run.last - run.first)
  0 < run.image ∧ (final < 0x61 ∨ 0x7A < run.image) ∧
    (final < 0xD800 ∨ 0xDFFF < run.image ∧ final < 0x110000)

instance (run : CaseRun) : Decidable run.Sound :=
  inferInstanceAs (Decidable (_ ∧ _ ∧ _))

theorem caseRuns_sound : ∀ run ∈ caseRuns, run.Sound := by decide +kernel

theorem caseExpansions_sound :
    ∀ row ∈ caseExpansions, row.2 ≠ [] ∧ ∀ code ∈ row.2, UpperImage code := by decide +kernel

theorem upperImage_apply {run : CaseRun} (sound : run.Sound) {code : Nat}
    (covered : run.covers code) : UpperImage (run.apply code) := by
  simp only [CaseRun.covers, Bool.and_eq_true, decide_eq_true_eq] at covered
  simp only [CaseRun.Sound] at sound
  simp only [UpperImage, CaseRun.apply, Nat.isValidChar]
  omega

theorem covers_of_isLower {code : Nat} (low : 0x61 ≤ code) (high : code ≤ 0x7A) :
    ∃ run ∈ caseRuns, run.covers code := by
  refine ⟨⟨0x61, 0x7A, 1, 0x41⟩, by unfold caseRuns; exact List.mem_cons_self, ?_⟩
  simp [CaseRun.covers, low, high, Nat.mod_one]

theorem mem_of_lookup {code : Nat} {images : List Nat}
    (found : caseExpansions.lookup code = some images) : (code, images) ∈ caseExpansions := by
  obtain ⟨before, after, split, _⟩ := List.lookup_eq_some_iff.1 found
  rw [split]
  simp

/-- Where an upper case comes from: a run, an expansion, or a code point without an upper case. -/
theorem mem_upperCodes {code image : Nat} (member : image ∈ upperCodes code) :
    UpperImage image ∨ image = code ∧ ∀ run ∈ caseRuns, ¬ run.covers code := by
  unfold upperCodes at member
  split at member
  case h_1 run found =>
    obtain rfl := List.mem_singleton.1 member
    have sound := caseRuns_sound run (List.mem_of_find?_eq_some found)
    have covered := List.find?_some found
    exact .inl (upperImage_apply sound covered)
  case h_2 uncovered =>
    cases expansion : caseExpansions.lookup code with
    | some images =>
      rw [expansion] at member
      exact .inl ((caseExpansions_sound _ (mem_of_lookup expansion)).2 image member)
    | none =>
      rw [expansion] at member
      refine .inr ⟨List.mem_singleton.1 member, ?_⟩
      simpa using uncovered

theorem upperCodes_ne_nil (code : Nat) : upperCodes code ≠ [] := by
  unfold upperCodes
  split
  case h_1 => simp
  case h_2 =>
    cases expansion : caseExpansions.lookup code with
    | some images => exact (caseExpansions_sound _ (mem_of_lookup expansion)).1
    | none => simp

theorem mem_upperChar {c image : Char} (member : image ∈ upperChar c) :
    UpperImage image.toNat ∨ image = c ∧ ∀ run ∈ caseRuns, ¬ run.covers c.toNat := by
  obtain ⟨code, found, rfl⟩ := List.mem_map.1 member
  obtain upper | ⟨rfl, uncovered⟩ := mem_upperCodes found
  · left
    rwa [toNat_ofNat upper.2.2]
  · exact .inr ⟨Char.ofNat_toNat c, uncovered⟩

theorem upperChar_ne_nil (c : Char) : upperChar c ≠ [] := by
  simpa [upperChar] using upperCodes_ne_nil c.toNat

theorem mem_uppercase {text : String} {image : Char} :
    image ∈ (uppercase text).toList ↔ ∃ c ∈ text.toList, image ∈ upperChar c := by
  simp [uppercase, List.mem_flatMap]

theorem uppercase_eq_empty_iff {text : String} : uppercase text = "" ↔ text = "" := by
  rw [← String.toList_inj, ← String.toList_inj]
  cases letters : text.toList with
  | nil => simp [uppercase, letters]
  | cons first rest =>
    obtain ⟨image, images, upper⟩ := List.exists_cons_of_ne_nil (upperChar_ne_nil first)
    simp [uppercase, letters, upper]

theorem isLower_eq_false_of_mem_uppercase {text : String} {image : Char}
    (member : image ∈ (uppercase text).toList) : image.isLower = false := by
  obtain ⟨c, _, found⟩ := mem_uppercase.1 member
  by_contra lower
  rw [Bool.not_eq_false, C.isLower_iff] at lower
  obtain upper | ⟨rfl, uncovered⟩ := mem_upperChar found
  · have outside := upper.2.1
    omega
  · obtain ⟨run, member, covered⟩ := covers_of_isLower lower.1 lower.2
    exact uncovered run member covered

theorem nul_mem_of_nul_mem_uppercase {text : String}
    (member : '\x00' ∈ (uppercase text).toList) : '\x00' ∈ text.toList := by
  obtain ⟨c, letter, found⟩ := mem_uppercase.1 member
  obtain upper | ⟨rfl, _⟩ := mem_upperChar found
  · exact absurd upper (by decide)
  · exact letter

theorem toUpper_eq_self {c : Char} (noLower : c.isLower = false) : c.toUpper = c := by
  unfold Char.toUpper
  rw [dif_neg]
  rintro ⟨low, high⟩
  have lower : c.isLower := by
    rw [C.isLower_iff]
    exact ⟨UInt32.le_iff_toNat_le.1 low, UInt32.le_iff_toNat_le.1 high⟩
  simp [lower] at noLower

/-- Module names are told apart by their upper case as well as by their lower case. -/
theorem toUpper_toLower (c : Char) : c.toLower.toUpper = c.toUpper := by
  by_cases upper : c.val ≥ 'A'.val ∧ c.val ≤ 'Z'.val
  · have above : 65 ≤ c.val.toNat := UInt32.le_iff_toNat_le.1 upper.1
    have below : c.val.toNat ≤ 90 := UInt32.le_iff_toNat_le.1 upper.2
    have letter : c.isLower = false := by
      rw [Bool.eq_false_iff, ne_eq, C.isLower_iff]
      change ¬ (97 ≤ c.val.toNat ∧ c.val.toNat ≤ 122)
      omega
    rw [toUpper_eq_self letter]
    have code : c = Char.ofNat c.toNat := (Char.ofNat_toNat c).symm
    change 65 ≤ c.toNat at above
    change c.toNat ≤ 90 at below
    rw [code]
    generalize c.toNat = n at above below
    interval_cases n <;> rfl
  · have same : c.toLower = c := by
      unfold Char.toLower
      rw [dif_neg upper]
    rw [same]

end PetriCode.Text
