import PetriCode.Proofs.C.Lines

/-! The headers that a text includes between double quotes, read off its tokens. A directive goes from a
number sign to the end of its line, and `include` has lower case letters. So a text in which only names
without lower case letters bring number signs includes nothing, whatever these names are: they may begin
and end comments, literals and lines, and join lines that stood apart. -/
namespace PetriCode.C

/-- What stands behind a word with which a text begins, up to white space before it. -/
def behind? (word : String) (text : List Char) : Option (List Char) :=
  let solid := text.dropWhile isSpace
  if word.toList.isPrefixOf solid then some (solid.drop word.toList.length) else none

/-- The header between double quotes that a directive includes. -/
def included? (line : String) : Option String := do
  let operand ← behind? "include" line.toList
  let name ← behind? "\"" operand
  if '"' ∈ name then some (String.ofList (name.takeWhile (· ≠ '"'))) else none

def Token.header? : Token → Option String
  | directive line => included? line
  | _ => none

/-- The headers that a text includes between double quotes, in the order of their directives. -/
def headers (text : String) : List String :=
  (tokens (logical text.toList)).filterMap Token.header?

theorem included?_quoted {header : String} (proper : '"' ∉ header.toList) :
    included? ("include \"" ++ header ++ "\"") = some header := by
  have operand : behind? "include" ("include \"" ++ header ++ "\"").toList =
      some (' ' :: '"' :: (header.toList ++ ['"'])) := by
    simp [behind?, isSpace, List.isPrefixOf]
  have name : behind? "\"" (' ' :: '"' :: (header.toList ++ ['"'])) =
      some (header.toList ++ ['"']) := by
    simp [behind?, isSpace, List.isPrefixOf]
  have inside : (header.toList ++ ['"']).takeWhile (· ≠ '"') = header.toList := by
    rw [List.takeWhile_append_of_pos]
    · simp
    · intro c member
      rw [decide_eq_true_iff]
      rintro rfl
      exact proper member
  simp only [included?, operand, name, inside, Option.bind_eq_bind, Option.bind_some,
    String.ofList_toList]
  simp

theorem included?_of_upper {line : List Char} (upper : ∀ c ∈ line, c.isLower = false) :
    included? (String.ofList line) = none := by
  have other : behind? "include" line = none := by
    simp only [behind?]
    rw [if_neg]
    intro begins
    have first := List.isPrefixOf_iff_prefix.1 begins
    have letter : 'i' ∈ line.dropWhile isSpace := first.subset (by decide)
    have lower := upper 'i' ((List.dropWhile_suffix _).subset letter)
    cases lower
  rw [included?, String.toList_ofList, other]
  rfl

/-- A directive begins at a number sign and goes to the end of the line. -/
theorem directive_of_lexeme {first : Char} {rest : List Char} {line : String}
    (read : (lexeme first rest).1 = some (.directive line)) :
    first = '#' ∧ line = String.ofList (rest.takeWhile (· ≠ '\n')) := by
  unfold lexeme at read
  split_ifs at read with _ _ _ sharp
  · cases read
    exact ⟨sharp, rfl⟩
  · unfold runToken at read
    split_ifs at read
    · cases read
    · cases run : number? (first :: rest.takeWhile isIdentifierPart) <;> rw [run] at read <;>
        cases read
  · cases quoted : literal? rest <;> rw [quoted] at read <;> cases read
  · cases quoted : character? rest <;> rw [quoted] at read <;> cases read
  · cases mark : mark? (first :: rest) <;> rw [mark] at read <;> cases read

/-- On no line there is a lower case letter behind a number sign. -/
def Hushed : List Char → Prop
  | [] => True
  | c :: rest => (c = '#' → ∀ d ∈ rest.takeWhile (· ≠ '\n'), d.isLower = false) ∧ Hushed rest

theorem Hushed.of_suffix {text rest : List Char} (hushed : Hushed text) (behind : rest <:+ text) :
    Hushed rest := by
  induction text with
  | nil => rwa [List.suffix_nil.1 behind]
  | cons c text ih =>
    obtain rfl | further := List.suffix_cons_iff.1 behind
    · exact hushed
    · exact ih hushed.2 further

theorem hushed_append_of_clear {front : List Char} (clear : '#' ∉ front) {rest : List Char} :
    Hushed (front ++ rest) ↔ Hushed rest := by
  induction front with
  | nil => rfl
  | cons c front ih =>
    rw [List.mem_cons, not_or] at clear
    rw [List.cons_append, Hushed, ih clear.2]
    simp [Ne.symm clear.1]

theorem hushed_of_upper {text : List Char} (upper : ∀ c ∈ text, c.isLower = false) : Hushed text := by
  induction text with
  | nil => trivial
  | cons c text ih =>
    rw [List.forall_mem_cons] at upper
    exact ⟨fun _ d member => upper.2 d ((List.takeWhile_sublist _).subset member), ih upper.2⟩

theorem takeWhile_before_lineEnd (line rest : List Char) :
    (line ++ '\n' :: rest).takeWhile (· ≠ '\n') = line.takeWhile (· ≠ '\n') := by
  induction line with
  | nil => simp
  | cons c line ih => simp only [List.cons_append, List.takeWhile_cons, ih]

theorem hushed_lineEnd {line rest : List Char} :
    Hushed (line ++ '\n' :: rest) ↔ Hushed line ∧ Hushed rest := by
  induction line with
  | nil => simp [Hushed]
  | cons c line ih =>
    rw [List.cons_append, Hushed, Hushed, ih, takeWhile_before_lineEnd, and_assoc]

/-- A hushed text includes nothing, since no directive in it has the letters of `include`. -/
theorem filterMap_header?_of_hushed {text : List Char} (hushed : Hushed text) :
    (tokens text).filterMap Token.header? = [] := by
  fun_induction tokens text with
  | case1 => rfl
  | case2 first rest ih =>
    have behind := hushed.2.of_suffix (suffix_lexeme first rest)
    rw [List.filterMap_append, ih behind, List.append_nil]
    cases read : (lexeme first rest).1 with
    | none => rfl
    | some token =>
      cases token with
      | directive line =>
        obtain ⟨sharp, rfl⟩ := directive_of_lexeme read
        exact List.filterMap_cons_none (included?_of_upper (hushed.1 sharp))
      | _ => rfl

/-- A text that brings in no letters of a directive, whatever stands before and behind it: number signs are
followed by no lower case letter on their lines once the phases are through. -/
structure Hushes (text : List Char) : Prop where
  hushed : ∀ rest, Hushed (logical rest) → Hushed (logical (text ++ rest))

theorem Hushes.append {front back : List Char} (first : Hushes front) (second : Hushes back) :
    Hushes (front ++ back) := by
  constructor
  intro rest hushed
  rw [List.append_assoc]
  exact first.hushed _ (second.hushed rest hushed)

theorem hushes_of_solid {text : List Char} (solid : Solid text) (clear : '#' ∉ text) :
    Hushes text := by
  constructor
  intro rest hushed
  rw [solid.logical_append]
  exact (hushed_append_of_clear clear).2 hushed

/-- A name without lower case letters may stand on a line as it is. It reaches no further than to the mark at
the end of the line. -/
theorem hushes_named {front name : List Char} {mark : Char} (solid : Solid front)
    (clear : '#' ∉ front) (upper : ∀ c ∈ name, c.isLower = false)
    (closes : mark = ',' ∨ mark = ';') : Hushes (front ++ name ++ [mark, '\n']) := by
  obtain ⟨plain, within, small⟩ : (mark ≠ '?' ∧ trigraph? mark = none) ∧
      (mark ≠ '\\' ∧ mark ≠ '\n') ∧ mark.isLower = false := by
    obtain rfl | rfl := closes <;> decide
  have lineEnd : Plain ['\n'] := by simp +decide
  constructor
  intro rest hushed
  -- The name is not solid: its end may begin a trigraph or be a backslash. The mark keeps both from the line end.
  have parts : logical (front ++ name ++ [mark, '\n'] ++ rest) =
      front ++ (logical name ++ [mark] ++ '\n' :: logical rest) := by
    have behind : logical ('\n' :: rest) = '\n' :: logical rest := lineEnd.solid.logical_append rest
    rw [List.append_assoc, List.append_assoc, solid.logical_append, List.cons_append,
      List.singleton_append, logical_mark plain within, behind, List.append_assoc,
      List.singleton_append]
  rw [parts, hushed_append_of_clear clear, hushed_lineEnd]
  refine ⟨hushed_of_upper ?_, hushed⟩
  rw [List.forall_mem_append, List.forall_mem_singleton]
  exact ⟨isLower_logical upper, small⟩

theorem hushes_line {line : String} (solid : Solid line.toList) (clear : '#' ∉ line.toList) :
    Hushes (laid [line]) := by
  have lineEnd : Plain ['\n'] := by simp +decide
  have parts : laid [line] = line.toList ++ ['\n'] := laid_cons line []
  rw [parts]
  exact (hushes_of_solid solid clear).append (hushes_of_solid lineEnd.solid (by decide))

theorem hushes_laid {lines : List String} (each : ∀ line ∈ lines, Hushes (laid [line])) :
    Hushes (laid lines) := by
  induction lines with
  | nil => exact ⟨fun _ hushed => hushed⟩
  | cons line lines ih =>
    rw [List.forall_mem_cons] at each
    rw [← List.singleton_append, laid_append]
    exact each.1.append (ih each.2)

section Code
variable {piece : Piece} {pieces others : List Piece}

/-- A piece that is no directive and holds no text from elsewhere. -/
@[simp] def Piece.isCode : Piece → Bool
  | directive _ | comment _ | literal _ => false
  | _ => true

def areCode (pieces : List Piece) : Bool := pieces.all Piece.isCode

@[simp] theorem areCode_nil : areCode [] = true := rfl

@[simp] theorem areCode_cons : areCode (piece :: pieces) = (piece.isCode && areCode pieces) := rfl

@[simp] theorem areCode_append : areCode (pieces ++ others) = (areCode pieces && areCode others) :=
  List.all_append

@[simp] theorem areCode_commas (items : List (List Piece)) :
    areCode (commas items) = items.all areCode := by
  unfold commas
  induction items with
  | nil => rfl
  | cons item items ih =>
    cases items with
    | nil => simp
    | cons next items => simp_all

@[simp] theorem areCode_type (type : TypeName) (name : String) : areCode (type.pieces name) := by
  cases type <;> rfl

@[simp] theorem areCode_operand (operand : Operand) : areCode operand.pieces := by
  cases operand <;> rfl

@[simp] theorem areCode_condition (condition : Condition) : areCode condition.pieces := by
  induction condition with
  | sameText left right => simp [Condition.pieces]
  | either left right first second => simp [Condition.pieces, first, second]
  | _ => rfl

@[simp] theorem areCode_call (function : String) (arguments : List Operand) :
    areCode (callPieces function arguments) := by
  simp [callPieces]

theorem areCode_prototype (head : Prototype) : areCode head.pieces := by
  cases parameter : head.parameter <;> simp [Prototype.pieces, Variable.pieces, parameter]

theorem areCode_statement (statement : Statement) : ∀ pieces ∈ statement.pieces, areCode pieces := by
  induction statement with
  | countUp type index bound body ih =>
    simp only [Statement.pieces, List.forall_mem_append, List.forall_mem_singleton]
    exact ⟨⟨rfl, ih⟩, rfl⟩
  | _ => simp [Statement.pieces, Variable.pieces]

theorem clear_piece {rest : List Char} (fits : piece.Fits rest) (code : piece.isCode) :
    '#' ∉ piece.text := by
  have noPart (text : List Char) (parts : ∀ c ∈ text, isIdentifierPart c) : '#' ∉ text :=
    fun sharp => absurd (parts '#' sharp) (by decide)
  cases piece with
  | space => decide
  | word text => exact noPart _ (parts_of_identifier fits.1)
  | number value =>
    rw [Piece.text, Text.Numeral.write, String.toList_ofList]
    exact noPart _ fun c member => part_of_isDigit (isDigit_of_mem_toDigits value c member)
  | nul => decide
  | mark text =>
    have clear : ∀ text ∈ brackets ++ operators, '#' ∉ text.toList := by decide
    exact clear text (List.mem_append.2 (fits.imp_right And.left))
  | directive line => cases code
  | comment text => cases code
  | literal text => cases code

theorem clear_spell {rest : List Char} (separate : Separate pieces rest) (code : areCode pieces) :
    '#' ∉ spell pieces := by
  induction pieces with
  | nil => exact List.not_mem_nil
  | cons piece pieces ih =>
    rw [areCode_cons, Bool.and_eq_true] at code
    rw [spell_cons, List.mem_append, not_or]
    exact ⟨clear_piece separate.1 code.1, ih separate.2 code.2⟩

theorem Spells.hushes {line : String} (spells : Spells line pieces) (code : areCode pieces) :
    Hushes (laid [line]) := by
  apply hushes_line spells.solid
  obtain ⟨⟨indent, text⟩, separate⟩ := spells
  rw [text, List.mem_append, not_or]
  refine ⟨fun blank => ?_, clear_spell (separate []) code⟩
  cases List.eq_of_mem_replicate blank

theorem hushes_spelled {lines : List String} {parts : List (List Piece)}
    (spells : List.Forall₂ Spells lines parts) (code : ∀ pieces ∈ parts, areCode pieces) :
    ∀ line ∈ lines, Hushes (laid [line]) := by
  induction spells with
  | nil => exact List.forall_mem_nil _
  | cons first others ih =>
    rw [List.forall_mem_cons] at code
    exact List.forall_mem_cons.2 ⟨first.hushes code.1, ih code.2⟩

/-- The lines of a readable function bring in nothing. -/
theorem hushes_definition {definition : Definition}
    (readable : (Declaration.function definition).Readable) :
    ∀ line ∈ definition.lines, Hushes (laid [line]) := by
  obtain ⟨head, body⟩ := readable
  have fixed : ∀ line ∈ ["\x7b", "\x7d", ""], Hushes (laid [line]) := by
    have plain : ∀ line ∈ ["\x7b", "\x7d", ""], Plain line.toList ∧ '#' ∉ line.toList := by
      simp +decide
    exact fun line member => hushes_line (plain line member).1.solid (plain line member).2
  intro line member
  simp only [Definition.lines, List.mem_append, List.mem_cons, List.not_mem_nil, or_false] at member
  obtain ((rfl | rfl) | inside) | rfl := member
  · exact Spells.hushes (.plain (spell_prototype _) (fun rest => separate_prototype head _))
      (areCode_prototype _)
  · exact fixed _ (by simp)
  · obtain rfl | ⟨group, listed, within⟩ := mem_spaced inside
    · exact fixed _ (by simp)
    · obtain ⟨statements, present, rfl⟩ := List.mem_map.1 listed
      obtain ⟨line, written, rfl⟩ := List.mem_map.1 within
      obtain ⟨statement, among, own⟩ := List.mem_flatMap.1 written
      have spells := spells_statement (body statements present statement among)
      exact hushes_spelled (List.forall₂_map_left_iff.2 (spells.imp fun _ _ => Spells.indented))
        (areCode_statement statement) _ (List.mem_map_of_mem own)
  · exact fixed _ (by simp)

theorem hushes_prototype {head : Prototype} (readable : head.Readable) :
    ∀ line ∈ (Declaration.prototype head).lines, Hushes (laid [line]) := by
  have spells : Spells (head.text ++ ";") (head.pieces ++ [.mark ";"]) := by
    refine .plain (by simp [Piece.text, spell_prototype]) ?_
    intro rest
    simp +decide [Piece.Fits, separate_prototype readable]
  exact List.forall_mem_singleton.2 (spells.hushes (by simp [areCode_prototype]))

end Code

/-- The headers of a text are those of its first lines if what stands behind them brings in nothing. -/
theorem headers_eq {text : String} {lines : List String} {front : List Token} {others : List Char}
    (parts : text.toList = laid lines ++ others) (lays : Lays lines front)
    (hushes : Hushes others) : headers text = front.filterMap Token.header? := by
  have hushed := hushes.hushed [] trivial
  rw [List.append_nil] at hushed
  rw [headers, parts, lays.solid.logical_append, lays.read, List.filterMap_append,
    filterMap_header?_of_hushed hushed, List.append_nil]

/-- The headers of a file are those of its first paragraphs if the lines behind them bring in nothing. -/
theorem headers_unitText {whole front back : TranslationUnit} (parts : whole = front ++ back)
    (begins : front ≠ []) (ends : back ≠ [])
    (written : (unitText whole).toList = laid (unitLines whole))
    (readable : ∀ paragraph ∈ front, ∀ declaration ∈ paragraph, declaration.Readable)
    (hushes : ∀ paragraph ∈ back, ∀ declaration ∈ paragraph, ∀ line ∈ declaration.lines,
      Hushes (laid [line])) :
    headers (unitText whole) =
      (front.flatten.flatMap Declaration.tokens).filterMap Token.header? := by
  have split : unitLines whole = unitLines front ++ "" :: unitLines back := by
    rw [parts, unitLines, List.map_append, spaced_append (by simpa using begins)
      (by simpa using ends), List.append_assoc, List.singleton_append, ← unitLines, ← unitLines]
  rw [split, laid_append] at written
  have blank : Hushes (laid [""]) := hushes_line plain_nil.solid List.not_mem_nil
  refine headers_eq written (lays_unit readable) (hushes_laid (List.forall_mem_cons.2 ⟨blank, ?_⟩))
  intro line member
  obtain rfl | ⟨lines, listed, inside⟩ := mem_spaced member
  · exact blank
  · obtain ⟨paragraph, among, rfl⟩ := List.mem_map.1 listed
    obtain ⟨declaration, present, own⟩ := List.mem_flatMap.1 inside
    exact hushes paragraph among declaration present line own

end PetriCode.C
