import Mathlib.Data.List.Basic
import PetriCode.C.Literal

/-! Texts as C sees them. Different texts have different bytes, and a byte is null only where the text has
a null character. -/
namespace PetriCode.C

theorem toByteArray_bytes (text : String) : (bytes text).toByteArray = text.toByteArray := by
  rw [← String.utf8Encode_toList]
  rfl

theorem bytes_inj {first second : String} : bytes first = bytes second ↔ first = second := by
  constructor
  · intro same
    rw [← String.toByteArray_inj, ← toByteArray_bytes, ← toByteArray_bytes, same]
  · intro same
    rw [same]

theorem bytes_eq_nil_iff {text : String} : bytes text = [] ↔ text = "" := by
  rw [← bytes_inj]
  rfl

theorem zero_mem_utf8EncodeChar_iff {c : Char} : 0 ∈ String.utf8EncodeChar c ↔ c = '\x00' := by
  constructor
  · intro member
    have same : c.toNat = c.val.toNat := rfl
    have code : c.toNat = 0 := by
      simp only [String.utf8EncodeChar] at member
      split_ifs at member <;> simp [← UInt8.toNat_inj] at member <;> omega
    exact Char.toNat_inj.1 code
  · rintro rfl
    decide

theorem zero_mem_bytes_iff {text : String} : 0 ∈ bytes text ↔ '\x00' ∈ text.toList := by
  simp [bytes, List.mem_flatMap, zero_mem_utf8EncodeChar_iff]

end PetriCode.C
