import PetriCode.Net.Basic
import PetriCode.Proofs.C.Phases
import PetriCode.Proofs.C.Token
import PetriCode.Proofs.Text.Letter

/-! Spelling. What is printed is made of pieces: tokens, white space and comments. If every piece can
stand before what follows it, the tokens of the pieces are read back from their text. -/
namespace PetriCode.C

section Octal

theorem isOctalDigit_octalDigit (n : Nat) : isOctalDigit (octalDigit n) := by
  have digits : ∀ m < 8, isOctalDigit (Char.ofNat ('0'.toNat + m)) := by decide
  exact digits _ (Nat.mod_lt _ (by decide))

theorem toNat_octalDigit (n : Nat) : (octalDigit n).toNat - '0'.toNat = n % 8 := by
  have values : ∀ m < 8, (Char.ofNat ('0'.toNat + m)).toNat - '0'.toNat = m := by decide
  exact values _ (Nat.mod_lt _ (by decide))

theorem octalDigits_octal (byte : Nat) (rest : List Char) :
    octalDigits (octal byte ++ rest) = octal byte := by
  simp [octalDigits, octal, isOctalDigit_octalDigit]

theorem ofDigitChars_octal {byte : Nat} (small : byte < 256) :
    Nat.ofDigitChars 8 (octal byte) 0 = byte := by
  simp only [octal, Nat.ofDigitChars_cons, Nat.ofDigitChars_nil, toNat_octalDigit]
  omega

theorem escaped?_octal {byte : Nat} (small : byte < 256) (rest : List Char) :
    escaped? (octal byte ++ rest) = some (UInt8.ofNat byte, rest) := by
  unfold escaped?
  rw [octalDigits_octal, if_neg (by simp [octal])]
  simp only [ofDigitChars_octal small, if_pos small]
  simp [octal]

end Octal

theorem toNat_ofNat_byte (byte : UInt8) : (Char.ofNat byte.toNat).toNat = byte.toNat := by
  have small := byte.toNat_lt
  exact Text.toNat_ofNat (.inl (by omega))

theorem byte_eq_of_ofNat {byte : UInt8} {c : Char} (same : Char.ofNat byte.toNat = c) :
    byte = UInt8.ofNat c.toNat := by
  rw [← same, toNat_ofNat_byte, UInt8.ofNat_toNat]

theorem utf8EncodeChar_of_printable {byte : UInt8} (high : byte.toNat ≤ 0x7E) :
    String.utf8EncodeChar (Char.ofNat byte.toNat) = [byte] := by
  have code : (Char.ofNat byte.toNat).val.toNat = byte.toNat := toNat_ofNat_byte byte
  simp only [String.utf8EncodeChar, code]
  rw [if_pos (by omega)]
  simp

theorem element?_escape (byte : UInt8) (rest : List Char) :
    element? (escape byte ++ rest) = some ([byte], rest) := by
  simp only [escape]
  split_ifs with marked printable
  · obtain quote | backslash | question := marked
    · rw [byte_eq_of_ofNat quote]
      rfl
    · rw [byte_eq_of_ofNat backslash]
      rfl
    · rw [byte_eq_of_ofNat question]
      rfl
  · rw [not_or, not_or] at marked
    have noEnd : Char.ofNat byte.toNat ≠ '\n' := by
      intro lineEnd
      rw [byte_eq_of_ofNat lineEnd] at printable
      exact absurd printable (by decide)
    simp [element?, marked.2.1, noEnd, utf8EncodeChar_of_printable printable.2]
  · have octal := escaped?_octal byte.toNat_lt rest
    simp [element?, octal]

theorem head?_escape_ne (byte : UInt8) (rest : List Char) :
    (escape byte ++ rest).head? ≠ some '"' := by
  simp only [escape]
  split_ifs with marked printable
  · simp
  · rw [not_or] at marked
    simpa using marked.1
  · simp

theorem literal?_escape (values : List UInt8) (rest : List Char) :
    literal? (values.flatMap escape ++ '"' :: rest) = some (values, rest) := by
  induction values with
  | nil =>
    rw [literal?]
    simp
  | cons byte values ih =>
    rw [List.flatMap_cons, List.append_assoc, literal?, if_neg (head?_escape_ne byte _)]
    split
    case h_1 unread => rw [element?_escape] at unread; cases unread
    case h_2 first after read =>
      rw [element?_escape] at read
      cases read
      rw [ih]
      rfl

section Calm

theorem octalDigit_cases (n : Nat) :
    octalDigit n ≠ '?' ∧ octalDigit n ≠ '\\' ∧ octalDigit n ≠ '\n' := by
  have digits : ∀ m < 8, Char.ofNat ('0'.toNat + m) ≠ '?' ∧ Char.ofNat ('0'.toNat + m) ≠ '\\' ∧
      Char.ofNat ('0'.toNat + m) ≠ '\n' := by decide
  exact digits _ (Nat.mod_lt _ (by decide))

theorem calm_escape (byte : UInt8) : (escape byte).IsChain Calm := by
  simp only [escape]
  split_ifs with marked
  · obtain quote | backslash | question := marked
    · simp +decide [quote, Calm]
    · simp +decide [backslash, Calm]
    · simp +decide [question, Calm]
  · exact .singleton _
  · have digit := octalDigit_cases
    simp [octal, Calm, digit]

/-- An escape may stand behind anything, since it begins with no question mark and no line end. -/
theorem escape_begins (byte : UInt8) : ∀ c ∈ (escape byte).head?, c ≠ '?' ∧ c ≠ '\n' := by
  simp only [escape]
  split_ifs with marked printable
  · simp
  · rw [not_or, not_or] at marked
    have noEnd : Char.ofNat byte.toNat ≠ '\n' := by
      intro lineEnd
      rw [byte_eq_of_ofNat lineEnd] at printable
      exact absurd printable (by decide)
    simpa using ⟨marked.2.2, noEnd⟩
  · simp

theorem calm_escapes (values : List UInt8) : (values.flatMap escape).IsChain Calm ∧
    ∀ c ∈ (values.flatMap escape).head?, c ≠ '?' ∧ c ≠ '\n' := by
  induction values with
  | nil => simp
  | cons byte values ih =>
    rw [List.flatMap_cons]
    refine ⟨(calm_escape byte).append ih.1 ?_, ?_⟩
    · intro last _ next begins
      obtain ⟨question, lineEnd⟩ := ih.2 next begins
      exact ⟨fun both => question both.2, fun both => lineEnd both.2⟩
    · intro c head
      rw [List.head?_append, Option.mem_def, Option.or_eq_some_iff] at head
      obtain inside | ⟨_, behind⟩ := head
      · exact escape_begins byte c inside
      · exact ih.2 c behind

theorem solid_literal (text : String) : Solid (literal text).toList := by
  have quoted : (literal text).toList = '"' :: ((bytes text).flatMap escape ++ ['"']) := by
    simp [literal]
  obtain ⟨calm, begins⟩ := calm_escapes (bytes text)
  rw [quoted]
  refine ⟨List.isChain_cons.2 ⟨?_, calm.append (.singleton _) ?_⟩, ?_⟩
  · simp +decide [Calm]
  · simp +decide [Calm]
  · intro c last
    rw [← List.cons_append, List.getLast?_concat] at last
    cases last
    decide

end Calm

section Numbers

/-- No numeral but that of 0 begins with a 0. -/
theorem head?_toDigits_ne {value : Nat} (positive : 0 < value) :
    (Nat.toDigits 10 value).head? ≠ some '0' := by
  induction value using Nat.strongRecOn with
  | ind value ih =>
    rw [Nat.toDigits_eq_if (by decide)]
    split
    case isTrue small =>
      have digits : ∀ n < 10, 0 < n → n.digitChar ≠ '0' := by decide
      simpa using digits value small positive
    case isFalse large =>
      have front := ih (value / 10) (by omega) (by omega)
      rwa [List.head?_append_of_ne_nil _ Nat.toDigits_ne_nil]

theorem number?_toDigits (value : Nat) : number? (Nat.toDigits 10 value) = some value := by
  unfold number?
  by_cases positive : 0 < value
  · have decimal : (Nat.toDigits 10 value).all Char.isDigit := by
      rw [List.all_eq_true]
      intro c member
      exact Nat.isDigit_of_mem_toDigits (by decide) (by decide) member
    rw [if_neg (head?_toDigits_ne positive), if_pos decimal, Nat.ofDigitChars_ten_toDigits]
  · obtain rfl : value = 0 := by omega
    rfl

end Numbers

/-- What is printed without a choice: tokens, white space and comments. -/
inductive Piece
  | space
  | word (text : String)
  | number (value : Weight)
  | literal (text : String)
  | nul
  | mark (text : String)
  | directive (line : String)
  | comment (text : String)

namespace Piece

def text : Piece → List Char
  | space => [' ']
  | word text => text.toList
  | number value => (Text.Numeral.write value).toList
  | literal text => (C.literal text).toList
  | nul => ['\'', '\\', '0', '\'']
  | mark text => text.toList
  | directive line => '#' :: line.toList
  | comment text => '/' :: '*' :: (text.toList ++ ['*', '/'])

def token : Piece → Option Token
  | space | comment _ => none
  | word text => some (.word text)
  | number value => some (.number value.toNat)
  | literal text => some (.literal (bytes text))
  | nul => some (.character 0)
  | mark text => some (.mark text)
  | directive line => some (.directive line)

end Piece

/-- A text that does not go on with the word or the number before it. -/
def EndsRun (text : List Char) : Prop := ∀ c ∈ text.head?, isIdentifierPart c = false

/-- The punctuators that no longer one begins with. -/
def brackets : List String := ["[", "]", "(", ")", "\x7b", "\x7d", ";", ","]

def operators : List String := ["=", "==", "<", ">=", "||", "*", "++"]

def prolongs (c : Char) : Bool := c ∈ ['.', '=', '>', '+', '-', '<', '&', '|']

def EndsMark (text : List Char) : Prop := ∀ c ∈ text.head?, prolongs c = false

theorem endsRun_cons {c : Char} {rest : List Char} :
    EndsRun (c :: rest) ↔ isIdentifierPart c = false := by
  simp [EndsRun]

theorem endsMark_cons {c : Char} {rest : List Char} :
    EndsMark (c :: rest) ↔ prolongs c = false := by
  simp [EndsMark]

/-- A piece can stand before a text: what is read of both begins with the piece. -/
def Piece.Fits : Piece → List Char → Prop
  | space, _ | literal _, _ | nul, _ => True
  | word text, rest => isIdentifier text.toList ∧ EndsRun rest
  | number _, rest => EndsRun rest
  | mark text, rest =>
    text ∈ brackets ∨ text ∈ operators ∧ EndsMark rest
  | directive line, rest =>
    '\n' ∉ line.toList ∧ Plain line.toList ∧ ∀ c ∈ rest.head?, c = '\n'
  | comment text, _ => '/' ∉ text.toList ∧ Plain text.toList

theorem mark?_bracket {text : String} (bracket : text ∈ brackets) (rest : List Char) :
    mark? (text.toList ++ rest) = some text := by
  simp only [brackets, List.mem_cons, List.not_mem_nil, or_false] at bracket
  rcases bracket with rfl | rfl | rfl | rfl | rfl | rfl | rfl | rfl <;> rfl

theorem mark?_operator {text : String} (operator : text ∈ operators) {rest : List Char}
    (ends : EndsMark rest) : mark? (text.toList ++ rest) = some text := by
  simp only [operators, List.mem_cons, List.not_mem_nil, or_false] at operator
  cases rest with
  | nil => rcases operator with rfl | rfl | rfl | rfl | rfl | rfl | rfl <;> rfl
  | cons next rest =>
    have other := ends next rfl
    simp only [prolongs, List.mem_cons, List.not_mem_nil, or_false, decide_eq_false_iff_not,
      not_or] at other
    rcases operator with rfl | rfl | rfl | rfl | rfl | rfl | rfl <;>
      simp [mark?, marks, List.isPrefixOf, eq_comm (b := next), other]

section Runs
variable {p : Char → Bool} {run rest : List Char} (all : ∀ c ∈ run, p c)
  (stop : ∀ c ∈ rest.head?, p c = false)
include all stop

theorem takeWhile_run : (run ++ rest).takeWhile p = run := by
  rw [List.takeWhile_append_of_pos all]
  cases rest with
  | nil => simp
  | cons c rest => simp [stop c rfl]

theorem dropWhile_run : (run ++ rest).dropWhile p = rest := by
  rw [List.dropWhile_append_of_pos all]
  cases rest with
  | nil => simp
  | cons c rest => simp [stop c rfl]

end Runs

theorem other_of_part {c : Char} (part : isIdentifierPart c) :
    isSpace c = false ∧ c ≠ '/' ∧ c ≠ '#' := by
  refine ⟨?_, ?_, ?_⟩
  · rw [Bool.eq_false_iff]
    intro space
    simp only [isSpace, List.mem_cons, List.not_mem_nil, or_false, decide_eq_true_eq] at space
    rcases space with rfl | rfl | rfl | rfl | rfl | rfl <;> exact absurd part (by decide)
  · intro slash
    exact absurd (slash ▸ part) (by decide)
  · intro sharp
    exact absurd (sharp ▸ part) (by decide)

theorem lexeme_run {first : Char} {run rest : List Char} (part : isIdentifierPart first)
    (all : ∀ c ∈ run, isIdentifierPart c) (ends : EndsRun rest) :
    lexeme first (run ++ rest) = (some (runToken first run), rest) := by
  obtain ⟨space, slash, sharp⟩ := other_of_part part
  simp [lexeme, space, slash, sharp, part, takeWhile_run all ends, dropWhile_run all ends]

theorem part_of_start {c : Char} (start : isIdentifierStart c) : isIdentifierPart c := by
  simp only [isIdentifierStart, isIdentifierPart, Char.isAlphanum, Bool.or_eq_true] at start ⊢
  tauto

theorem parts_of_identifier {text : List Char} (identifier : isIdentifier text) :
    ∀ c ∈ text, isIdentifierPart c := by
  cases text with
  | nil => simp
  | cons first rest =>
    simp only [isIdentifier, Bool.and_eq_true, List.all_eq_true] at identifier
    exact List.forall_mem_cons.2 ⟨part_of_start identifier.1, identifier.2⟩

theorem part_of_isDigit {c : Char} (digit : c.isDigit) : isIdentifierPart c := by
  simp [isIdentifierPart, Char.isAlphanum, digit]

theorem start_of_isDigit {c : Char} (digit : c.isDigit) : isIdentifierStart c = false := by
  rw [Char.isDigit_iff_toNat] at digit
  have nine : '9'.toNat = 57 := rfl
  have underscore : c ≠ '_' := by
    rintro rfl
    exact absurd digit (by decide)
  have upper : c.isUpper = false := by
    rw [Bool.eq_false_iff, ne_eq, Text.isUpper_iff]
    omega
  have lower : c.isLower = false := by
    rw [Bool.eq_false_iff, ne_eq, isLower_iff]
    omega
  simp [isIdentifierStart, Text.isAlpha_eq, upper, lower, underscore]

theorem tokens_word {text : String} (identifier : isIdentifier text.toList) {rest : List Char}
    (ends : EndsRun rest) : tokens (text.toList ++ rest) = .word text :: tokens rest := by
  obtain ⟨first, run, letters⟩ : ∃ first run, text.toList = first :: run := by
    cases letters : text.toList with
    | nil => simp [letters, isIdentifier] at identifier
    | cons first run => exact ⟨first, run, rfl⟩
  have same : String.ofList (first :: run) = text := by rw [← letters, String.ofList_toList]
  simp only [letters, isIdentifier, Bool.and_eq_true, List.all_eq_true] at identifier
  rw [letters, List.cons_append, tokens_cons,
    lexeme_run (part_of_start identifier.1) identifier.2 ends]
  simp [runToken, identifier.1, same]

theorem isDigit_of_mem_toDigits (value : Weight) :
    ∀ c ∈ Nat.toDigits 10 value.toNat, c.isDigit := fun _ member =>
  Nat.isDigit_of_mem_toDigits (by decide) (by decide) member

theorem tokens_number (value : Weight) {rest : List Char} (ends : EndsRun rest) :
    tokens ((Text.Numeral.write value).toList ++ rest) = .number value.toNat :: tokens rest := by
  have decimal := isDigit_of_mem_toDigits value
  have read := number?_toDigits value.toNat
  rw [Text.Numeral.write, String.toList_ofList]
  cases digits : Nat.toDigits 10 value.toNat with
  | nil => exact absurd digits Nat.toDigits_ne_nil
  | cons first run =>
    rw [digits] at decimal read
    have parts : ∀ c ∈ first :: run, isIdentifierPart c :=
      fun c member => part_of_isDigit (decimal c member)
    obtain ⟨firstPart, runParts⟩ := List.forall_mem_cons.1 parts
    rw [List.cons_append, tokens_cons, lexeme_run firstPart runParts ends]
    simp [runToken, start_of_isDigit (decimal first (by simp)), read]

def OpensMark (c : Char) : Prop :=
  isSpace c = false ∧ c ≠ '/' ∧ c ≠ '#' ∧ isIdentifierPart c = false ∧ c ≠ '"' ∧ c ≠ '\''

instance (c : Char) : Decidable (OpensMark c) := inferInstanceAs (Decidable (_ ∧ _))

theorem marks_open :
    ∀ text ∈ brackets ++ operators, text.toList.head?.any fun first => OpensMark first := by
  decide

theorem marks_plain :
    ∀ text ∈ brackets ++ operators, text.toList.all fun c => c ≠ '?' ∧ c ≠ '\\' := by
  decide

theorem tokens_mark {text : String} {rest : List Char} (fits : (Piece.mark text).Fits rest) :
    tokens (text.toList ++ rest) = .mark text :: tokens rest := by
  have longest : mark? (text.toList ++ rest) = some text := by
    obtain bracket | ⟨operator, ends⟩ := fits
    · exact mark?_bracket bracket rest
    · exact mark?_operator operator ends
  have known : text ∈ brackets ++ operators := List.mem_append.2 (fits.imp_right And.left)
  obtain ⟨first, head, opens⟩ := (Option.any_eq_true _ _).1 (marks_open text known)
  obtain ⟨space, slash, sharp, part, quote, apostrophe⟩ := of_decide_eq_true opens
  obtain ⟨more, letters⟩ : ∃ more, text.toList = first :: more := by
    cases letters : text.toList with
    | nil => simp [letters] at head
    | cons other more =>
      obtain rfl : other = first := by simpa [letters] using head
      exact ⟨more, rfl⟩
  rw [letters, List.cons_append] at longest
  rw [letters, List.cons_append, tokens_cons]
  simp [lexeme, space, slash, sharp, part, quote, apostrophe, longest, letters]

theorem afterComment_end {text : List Char} (plain : '/' ∉ text) (rest : List Char) :
    afterComment (text ++ '*' :: '/' :: rest) = rest := by
  induction text with
  | nil => rfl
  | cons c text ih =>
    rw [List.mem_cons, not_or] at plain
    rw [List.cons_append, afterComment, ih plain.2]
    intro after star slash
    cases text with
    | nil => simp at slash
    | cons next text =>
      obtain ⟨rfl, _⟩ := List.cons.inj slash
      simp at plain

theorem tokens_comment {text : String} (plain : '/' ∉ text.toList) (rest : List Char) :
    tokens ((Piece.comment text).text ++ rest) = tokens rest := by
  have after := afterComment_end plain rest
  rw [Piece.text, List.cons_append, tokens_cons]
  simp [lexeme, isSpace, after]

theorem tokens_literal (text : String) (rest : List Char) :
    tokens ((Piece.literal text).text ++ rest) = .literal (bytes text) :: tokens rest := by
  have letters : (Piece.literal text).text = '"' :: ((bytes text).flatMap escape ++ ['"']) := by
    simp [Piece.text, literal]
  rw [letters, List.cons_append, tokens_cons]
  simp [lexeme, isSpace, isIdentifierPart, Char.isAlphanum, literal?_escape]

theorem tokens_nul (rest : List Char) :
    tokens (Piece.nul.text ++ rest) = .character 0 :: tokens rest := by
  have read : character? ('\\' :: '0' :: '\'' :: rest) = some (0, rest) := rfl
  simp only [Piece.text, List.cons_append, List.nil_append]
  rw [tokens_cons]
  simp [lexeme, isSpace, isIdentifierPart, Char.isAlphanum, read]

theorem tokens_directive {line : String} {rest : List Char}
    (fits : (Piece.directive line).Fits rest) :
    tokens ((Piece.directive line).text ++ rest) = .directive line :: tokens rest := by
  have all : ∀ c ∈ line.toList, decide (c ≠ '\n') := by
    intro c member
    simp only [decide_eq_true_eq]
    rintro rfl
    exact fits.1 member
  have stop : ∀ c ∈ rest.head?, decide (c ≠ '\n') = false := by
    intro c head
    simp [fits.2.2 c head]
  rw [Piece.text, List.cons_append, tokens_cons]
  simp only [lexeme, takeWhile_run all stop, dropWhile_run all stop]
  simp [isSpace]

theorem plain_of_parts {text : List Char} (parts : ∀ c ∈ text, isIdentifierPart c) : Plain text := by
  intro c member
  have part := parts c member
  constructor
  · rintro rfl
    exact absurd part (by decide)
  · rintro rfl
    exact absurd part (by decide)

theorem solid_piece {piece : Piece} {rest : List Char} (fits : piece.Fits rest) :
    Solid piece.text := by
  cases piece with
  | space => exact Plain.solid (by simp +decide [Piece.text])
  | word text => exact (plain_of_parts (parts_of_identifier fits.1)).solid
  | number value =>
    rw [Piece.text, Text.Numeral.write, String.toList_ofList]
    have decimal := isDigit_of_mem_toDigits value
    exact (plain_of_parts fun c member => part_of_isDigit (decimal c member)).solid
  | literal text => exact solid_literal text
  | nul =>
    refine ⟨by simp [Piece.text, Calm], ?_⟩
    intro c last
    cases last
    decide
  | mark text =>
    have known : text ∈ brackets ++ operators := List.mem_append.2 (fits.imp_right And.left)
    have plain := List.all_eq_true.1 (marks_plain text known)
    exact Plain.solid fun c member => of_decide_eq_true (plain c member)
  | directive line => exact Plain.solid (by simp +decide [Piece.text, fits.2.1])
  | comment text => exact Plain.solid (by simp +decide [Piece.text, fits.2])

theorem tokens_piece {piece : Piece} {rest : List Char} (fits : piece.Fits rest) :
    tokens (piece.text ++ rest) = piece.token.toList ++ tokens rest := by
  cases piece with
  | space => rw [Piece.text, List.singleton_append, tokens_cons]; rfl
  | word text => exact tokens_word fits.1 fits.2
  | number value => exact tokens_number value fits
  | literal text => exact tokens_literal text rest
  | nul => exact tokens_nul rest
  | mark text => exact tokens_mark fits
  | directive line => exact tokens_directive fits
  | comment text => exact tokens_comment fits.1 rest

def spell (pieces : List Piece) : List Char := pieces.flatMap Piece.text

@[simp] theorem spell_nil : spell [] = [] := rfl

@[simp] theorem spell_cons (piece : Piece) (pieces : List Piece) :
    spell (piece :: pieces) = piece.text ++ spell pieces := List.flatMap_cons

@[simp] theorem spell_append (pieces others : List Piece) :
    spell (pieces ++ others) = spell pieces ++ spell others := List.flatMap_append

def tokensOf (pieces : List Piece) : List Token := pieces.filterMap Piece.token

section TokensOf
variable (pieces others : List Piece) (text : String)

@[simp] theorem tokensOf_nil : tokensOf [] = [] := rfl

@[simp] theorem tokensOf_append : tokensOf (pieces ++ others) = tokensOf pieces ++ tokensOf others :=
  List.filterMap_append

@[simp] theorem tokensOf_space : tokensOf (.space :: pieces) = tokensOf pieces := rfl

@[simp] theorem tokensOf_word : tokensOf (.word text :: pieces) = .word text :: tokensOf pieces :=
  rfl

@[simp] theorem tokensOf_number (value : Weight) :
    tokensOf (.number value :: pieces) = .number value.toNat :: tokensOf pieces := rfl

@[simp] theorem tokensOf_literal :
    tokensOf (.literal text :: pieces) = .literal (bytes text) :: tokensOf pieces := rfl

@[simp] theorem tokensOf_nul : tokensOf (.nul :: pieces) = .character 0 :: tokensOf pieces := rfl

@[simp] theorem tokensOf_mark : tokensOf (.mark text :: pieces) = .mark text :: tokensOf pieces :=
  rfl

@[simp] theorem tokensOf_directive :
    tokensOf (.directive text :: pieces) = .directive text :: tokensOf pieces := rfl

@[simp] theorem tokensOf_comment : tokensOf (.comment text :: pieces) = tokensOf pieces := rfl

end TokensOf

def Separate : List Piece → List Char → Prop
  | [], _ => True
  | piece :: pieces, rest => piece.Fits (spell pieces ++ rest) ∧ Separate pieces rest

theorem tokens_spell {pieces : List Piece} {rest : List Char} (separate : Separate pieces rest) :
    tokens (spell pieces ++ rest) = tokensOf pieces ++ tokens rest := by
  induction pieces with
  | nil => rfl
  | cons piece pieces ih =>
    obtain ⟨fits, others⟩ := separate
    rw [spell_cons, List.append_assoc, tokens_piece fits, ih others, tokensOf, tokensOf,
      List.filterMap_cons]
    cases piece.token <;> rfl

theorem solid_spell {pieces : List Piece} {rest : List Char} (separate : Separate pieces rest) :
    Solid (spell pieces) := by
  induction pieces with
  | nil => exact plain_nil.solid
  | cons piece pieces ih => exact (solid_piece separate.1).append (ih separate.2)

@[simp] theorem separate_nil (rest : List Char) : Separate [] rest ↔ True := Iff.rfl

@[simp] theorem separate_cons {piece : Piece} {pieces : List Piece} {rest : List Char} :
    Separate (piece :: pieces) rest ↔
      piece.Fits (spell pieces ++ rest) ∧ Separate pieces rest := Iff.rfl

@[simp] theorem separate_append {pieces others : List Piece} {rest : List Char} :
    Separate (pieces ++ others) rest ↔
      Separate pieces (spell others ++ rest) ∧ Separate others rest := by
  induction pieces with
  | nil => simp
  | cons piece pieces ih => simp [ih, and_assoc]

end PetriCode.C
