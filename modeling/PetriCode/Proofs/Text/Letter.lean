import PetriCode.C.Identifier
import PetriCode.Text.Uppercase

/-! Letters of ASCII as ranges of code points, what a change of case does to them, and the characters of valid code
points. -/
namespace PetriCode.Text

theorem isUpper_iff (c : Char) : c.isUpper ↔ 65 ≤ c.toNat ∧ c.toNat ≤ 90 := by
  have bounds : c.isUpper = (decide ('A'.val ≤ c.val) && decide (c.val ≤ 'Z'.val)) :=
    Bool.decide_and _ _
  rw [bounds, Bool.and_eq_true, decide_eq_true_eq, decide_eq_true_eq]
  exact and_congr UInt32.le_iff_toNat_le UInt32.le_iff_toNat_le

theorem isAlpha_eq (c : Char) : c.isAlpha = (c.isUpper || c.isLower) := rfl

theorem toNat_ofNat {code : Nat} (valid : code.isValidChar) : (Char.ofNat code).toNat = code := by
  unfold Char.ofNat
  rw [dif_pos valid]
  rfl

/-- Only lower case letters change in upper case, and they become upper case letters. -/
theorem toUpper_cases (c : Char) : c.toUpper = c ∧ c.isLower = false ∨ c.toUpper.isUpper := by
  unfold Char.toUpper
  split
  case isTrue lower =>
    right
    have above : 97 ≤ c.val.toNat := UInt32.le_iff_toNat_le.1 lower.1
    have below : c.val.toNat ≤ 122 := UInt32.le_iff_toNat_le.1 lower.2
    have shifted : (c.val + ('A'.val - 'a'.val)).toNat = c.val.toNat - 32 := by
      have shift : ('A'.val - 'a'.val).toNat = 4294967264 := rfl
      rw [UInt32.toNat_add, shift]
      omega
    rw [isUpper_iff]
    change 65 ≤ (c.val + ('A'.val - 'a'.val)).toNat ∧ (c.val + ('A'.val - 'a'.val)).toNat ≤ 90
    omega
  case isFalse other =>
    refine .inl ⟨rfl, ?_⟩
    rw [Bool.eq_false_iff, ne_eq, C.isLower_iff]
    exact fun lower =>
      other ⟨UInt32.le_iff_toNat_le.2 lower.1, UInt32.le_iff_toNat_le.2 lower.2⟩

theorem isLower_eq_false_of_mem_uppercaseAscii {text : List Char} {image : Char}
    (member : image ∈ uppercaseAscii text) : image.isLower = false := by
  obtain ⟨c, _, rfl⟩ := List.mem_map.1 member
  obtain ⟨same, noLower⟩ | upper := toUpper_cases c
  · rwa [same]
  · rw [isUpper_iff] at upper
    rw [Bool.eq_false_iff, ne_eq, C.isLower_iff]
    omega

/-- Only upper case letters change in lower case. -/
theorem toLower_eq_or_isUpper (c : Char) : c.toLower = c ∨ c.isUpper := by
  unfold Char.toLower
  split
  · rename_i upper
    right
    rw [isUpper_iff]
    exact ⟨UInt32.le_iff_toNat_le.1 upper.1, UInt32.le_iff_toNat_le.1 upper.2⟩
  · exact .inl rfl

theorem lowercaseAscii_lowercaseAscii (text : List Char) :
    lowercaseAscii (lowercaseAscii text) = lowercaseAscii text := by
  rw [lowercaseAscii, lowercaseAscii, List.map_map]
  refine List.map_congr_left fun c _ => ?_
  obtain same | lower := C.toLower_cases c
  · rw [Function.comp_apply, same, same]
  · obtain same | upper := toLower_eq_or_isUpper c.toLower
    · exact same
    · rw [C.isLower_iff] at lower
      rw [isUpper_iff] at upper
      omega

end PetriCode.Text
