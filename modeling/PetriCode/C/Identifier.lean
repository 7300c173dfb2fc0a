/-! Identifiers of C: a letter or underscore, then letters, digits and underscores, all ASCII. The
case of the letters does not matter to that. -/
namespace PetriCode.C

def isIdentifierStart (c : Char) : Bool := c.isAlpha || c == '_'

def isIdentifierPart (c : Char) : Bool := c.isAlphanum || c == '_'

def isIdentifier : List Char → Bool
  | [] => false
  | first :: rest => isIdentifierStart first && rest.all isIdentifierPart

theorem isLower_iff (c : Char) : c.isLower ↔ 97 ≤ c.toNat ∧ c.toNat ≤ 122 := by
  have bounds : c.isLower = (decide ('a'.val ≤ c.val) && decide (c.val ≤ 'z'.val)) := rfl
  rw [bounds, Bool.and_eq_true, decide_eq_true_eq, decide_eq_true_eq]
  exact and_congr UInt32.le_iff_toNat_le UInt32.le_iff_toNat_le

/-- Only upper case letters change in lower case, and they become lower case letters. -/
theorem toLower_cases (c : Char) : c.toLower = c ∨ c.toLower.isLower := by
  unfold Char.toLower
  split
  · rename_i upper
    right
    have above : 65 ≤ c.val.toNat := UInt32.le_iff_toNat_le.1 upper.1
    have below : c.val.toNat ≤ 90 := UInt32.le_iff_toNat_le.1 upper.2
    have shift : ('a'.val - 'A'.val).toNat = 32 := rfl
    rw [isLower_iff]
    change 97 ≤ (c.val + ('a'.val - 'A'.val)).toNat ∧ (c.val + ('a'.val - 'A'.val)).toNat ≤ 122
    rw [UInt32.toNat_add, shift]
    omega
  · exact .inl rfl

theorem isIdentifierStart_toLower (c : Char) (start : isIdentifierStart c) :
    isIdentifierStart c.toLower := by
  obtain same | lower := toLower_cases c
  · rw [same]; exact start
  · have alpha : c.toLower.isAlpha = (c.toLower.isUpper || c.toLower.isLower) := rfl
    simp [isIdentifierStart, alpha, lower]

theorem isIdentifierPart_toLower (c : Char) (part : isIdentifierPart c) :
    isIdentifierPart c.toLower := by
  obtain same | lower := toLower_cases c
  · rw [same]; exact part
  · have alphanum : c.toLower.isAlphanum =
        ((c.toLower.isUpper || c.toLower.isLower) || c.toLower.isDigit) := rfl
    simp [isIdentifierPart, alphanum, lower]

theorem isIdentifier_map_toLower (text : List Char) (identifier : isIdentifier text) :
    isIdentifier (text.map Char.toLower) := by
  cases text with
  | nil => exact identifier
  | cons first rest =>
    simp only [isIdentifier, List.map_cons, Bool.and_eq_true, List.all_eq_true,
      List.mem_map] at identifier ⊢
    refine ⟨isIdentifierStart_toLower _ identifier.1, ?_⟩
    rintro _ ⟨c, member, rfl⟩
    exact isIdentifierPart_toLower _ (identifier.2 c member)

end PetriCode.C
