import PetriCode.Proofs.C.Printing
import PetriCode.Proofs.Text.Integer

/-! Lines. Every line that the printer writes spells pieces, and a file is read as the tokens of its
lines. Blank lines and indentation do not matter to that, and neither does the white space that is
taken from the end of a file, since there is none. -/
namespace PetriCode.C

/-- A line spells pieces behind its indentation. -/
structure Spells (line : String) (pieces : List Piece) : Prop where
  text : ∃ indent, line.toList = List.replicate indent ' ' ++ spell pieces
  separate : ∀ rest, Separate pieces ('\n' :: rest)

theorem Spells.plain {line : String} {pieces : List Piece} (text : spell pieces = line.toList)
    (separate : ∀ rest, Separate pieces ('\n' :: rest)) : Spells line pieces :=
  ⟨⟨0, text.symm⟩, separate⟩

theorem Spells.indented {line : String} {pieces : List Piece} (spells : Spells line pieces) :
    Spells ("    " ++ line) pieces := by
  obtain ⟨⟨indent, text⟩, separate⟩ := spells
  refine ⟨⟨indent + 4, ?_⟩, separate⟩
  simp [text, List.replicate_succ]

theorem spells_define {result : Variable} {function : String} {arguments : List Operand}
    (readable : (Statement.define result function arguments).Readable) :
    List.Forall₂ Spells (Statement.define result function arguments).lines
      (Statement.define result function arguments).pieces := by
  obtain ⟨resultReadable, isName, argumentsReadable⟩ := readable
  refine .cons (.plain ?_ ?_) .nil
  · simp [Piece.text, spell_variable, spell_call]
  · intro rest
    have target (after : List Char) : Separate result.pieces (' ' :: after) :=
      separate_variable resultReadable (endsRun_cons.2 (by decide))
    have call := separate_call isName argumentsReadable
    simp +decide [Piece.Fits, Piece.text, endsMark_cons, target, call]

theorem spells_defineArray {type name size : String} {values : List Weight}
    (readable : (Statement.defineArray type name size values).Readable) :
    List.Forall₂ Spells (Statement.defineArray type name size values).lines
      (Statement.defineArray type name size values).pieces := by
  obtain ⟨isType, isName, isSize, _⟩ := readable
  refine .cons (.plain ?_ ?_) .nil
  · simp [Piece.text, spell_commas, initializer, Function.comp_def]
  · intro rest
    have separate (after : List Char) :
        Separate (commas (values.map fun value => [.number value])) ('\x7d' :: after) := by
      apply separate_commas _ (endsRun_cons.2 (by decide))
      intro item member rest ends
      obtain ⟨value, _, rfl⟩ := List.mem_map.1 member
      simpa [Piece.Fits] using ends
    simp +decide [Piece.Fits, Piece.text, endsMark_cons, endsRun_cons, isType.1, isName.1,
      isSize.1, separate]

theorem spells_returnsIf {condition : Condition} {value : Operand}
    (readable : (Statement.returnsIf condition value).Readable) :
    List.Forall₂ Spells (Statement.returnsIf condition value).lines
      (Statement.returnsIf condition value).pieces := by
  obtain ⟨conditionReadable, valueReadable⟩ := readable
  refine .cons (.plain ?_ ?_) .nil
  · simp [Piece.text, spell_operand, spell_condition]
  · intro rest
    have condition (after : List Char) : Separate condition.pieces (')' :: after) :=
      separate_condition conditionReadable (endsRun_cons.2 (by decide))
    have operand : Separate value.pieces (';' :: '\n' :: rest) :=
      separate_operand valueReadable (endsRun_cons.2 (by decide))
    simp +decide [Piece.Fits, Piece.text, endsRun_cons, condition, operand]

theorem spells_statement {statement : Statement} (readable : statement.Readable) :
    List.Forall₂ Spells statement.lines statement.pieces := by
  induction statement with
  | define result function arguments => exact spells_define readable
  | defineArray type name size values => exact spells_defineArray readable
  | call function arguments =>
    obtain ⟨isName, argumentsReadable⟩ := readable
    refine .cons (.plain ?_ ?_) .nil
    · simp [Piece.text, spell_call]
    · intro rest
      simp +decide [Piece.Fits, Piece.text, separate_call isName argumentsReadable]
  | discard name =>
    refine .cons (.plain ?_ ?_) .nil
    · simp [Piece.text]
    · intro rest
      have identifier := readable.1
      simp +decide [Piece.Fits, Piece.text, endsRun_cons, identifier]
  | returns value =>
    refine .cons (.plain ?_ ?_) .nil
    · simp [Piece.text, spell_operand]
    · intro rest
      have operand : Separate value.pieces (';' :: '\n' :: rest) :=
        separate_operand readable (endsRun_cons.2 (by decide))
      simp +decide [Piece.Fits, Piece.text, endsRun_cons, operand]
  | returnsIf condition value => exact spells_returnsIf readable
  | countUp type index bound body ih =>
    obtain ⟨isType, isIndex, isBound, bodyReadable⟩ := readable
    refine .cons (.plain ?_ ?_) (List.rel_append ?_ (.cons (.plain ?_ ?_) .nil))
    · simp [Piece.text, write_zero]
    · intro rest
      simp +decide [Piece.Fits, Piece.text, endsMark_cons, endsRun_cons, isType.1, isIndex.1,
        isBound.1]
    · exact List.forall₂_map_left_iff.2 ((ih bodyReadable).imp fun _ _ => Spells.indented)
    · simp [Piece.text]
    · intro rest
      simp +decide [Piece.Fits]

def laid (lines : List String) : List Char := lines.flatMap fun line => line.toList ++ ['\n']

@[simp] theorem laid_cons (line : String) (lines : List String) :
    laid (line :: lines) = line.toList ++ '\n' :: laid lines := by
  simp [laid]

@[simp] theorem laid_append (lines others : List String) :
    laid (lines ++ others) = laid lines ++ laid others := List.flatMap_append

/-- Lines are read as the given tokens, whatever follows them, and nothing in them is replaced before. -/
structure Lays (lines : List String) (front : List Token) : Prop where
  read : ∀ rest, tokens (laid lines ++ rest) = front ++ tokens rest
  solid : Solid (laid lines)

theorem tokens_blank {c : Char} (space : isSpace c) (rest : List Char) :
    tokens (c :: rest) = tokens rest := by
  rw [tokens_cons]
  simp [lexeme, space]

theorem tokens_indent (indent : Nat) (text : List Char) :
    tokens (List.replicate indent ' ' ++ text) = tokens text := by
  induction indent with
  | zero => rfl
  | succ indent ih => rw [List.replicate_succ, List.cons_append, tokens_blank (by decide), ih]

theorem Spells.solid {line : String} {pieces : List Piece} (spells : Spells line pieces) :
    Solid line.toList := by
  obtain ⟨⟨indent, text⟩, separate⟩ := spells
  have blanks : Plain (List.replicate indent ' ') := by
    intro c member
    rw [List.eq_of_mem_replicate member]
    decide
  rw [text]
  exact blanks.solid.append (solid_spell (separate []))

theorem lays_nil : Lays [] [] := ⟨fun _ => rfl, plain_nil.solid⟩

theorem lays_of_spells {lines : List String} {parts : List (List Piece)}
    (spells : List.Forall₂ Spells lines parts) : Lays lines (tokensOf parts.flatten) := by
  induction spells with
  | nil => exact lays_nil
  | @cons line pieces lines parts first others ih =>
    have lineEnd : Plain ['\n'] := by simp +decide
    refine ⟨?_, ?_⟩
    · intro rest
      obtain ⟨⟨indent, text⟩, separate⟩ := first
      rw [laid_cons, text, List.append_assoc, List.append_assoc, List.cons_append, tokens_indent,
        tokens_spell (separate _), tokens_blank (by decide), ih.read rest, List.flatten_cons,
        tokensOf_append, List.append_assoc]
    · rw [laid_cons]
      exact first.solid.append (lineEnd.solid.append ih.solid)

namespace Lays

theorem append {lines others : List String} {front back : List Token} (first : Lays lines front)
    (second : Lays others back) : Lays (lines ++ others) (front ++ back) where
  read := by
    intro rest
    rw [laid_append, List.append_assoc, first.read, second.read, List.append_assoc]
  solid := by
    rw [laid_append]
    exact first.solid.append second.solid

theorem blank : Lays [""] [] where
  read := tokens_blank (by decide)
  solid := Plain.solid (by simp +decide [laid])

theorem flatMap {α : Type} {items : List α} {lines : α → List String} {front : α → List Token}
    (each : ∀ item ∈ items, Lays (lines item) (front item)) :
    Lays (items.flatMap lines) (items.flatMap front) := by
  induction items with
  | nil => exact lays_nil
  | cons item items ih =>
    obtain ⟨first, others⟩ := List.forall_mem_cons.1 each
    exact first.append (ih others)

theorem spaced {α : Type} {items : List α} {lines : α → List String} {front : α → List Token}
    (each : ∀ item ∈ items, Lays (lines item) (front item)) :
    Lays (C.spaced (items.map lines)) (items.flatMap front) := by
  unfold C.spaced
  induction items with
  | nil => exact lays_nil
  | cons item items ih =>
    obtain ⟨first, others⟩ := List.forall_mem_cons.1 each
    cases items with
    | nil => simpa using first
    | cons next items =>
      have tail := ih others
      have gap := first.append (blank.append tail)
      simpa using gap

end Lays

def Statement.tokens (statement : Statement) : List Token :=
  tokensOf statement.pieces.flatten

def Declaration.tokens (declaration : Declaration) : List Token :=
  tokensOf declaration.pieces.flatten

theorem tokens_statements (statements : List Statement) :
    tokensOf (statements.flatMap Statement.pieces).flatten =
      statements.flatMap Statement.tokens := by
  induction statements with
  | nil => rfl
  | cons statement statements ih => simp [Statement.tokens, ih]

theorem lays_body {groups : List (List Statement)}
    (readable : ∀ group ∈ groups, ∀ statement ∈ group, statement.Readable) :
    Lays (spaced (groups.map fun group => indented (group.flatMap Statement.lines)))
      (groups.flatten.flatMap Statement.tokens) := by
  rw [← List.flatMap_id, List.flatMap_assoc]
  apply Lays.spaced
  intro group member
  unfold indented
  rw [List.map_flatMap]
  apply Lays.flatMap
  intro statement present
  have spells := spells_statement (readable group member statement present)
  exact lays_of_spells (List.forall₂_map_left_iff.2 (spells.imp fun _ _ => Spells.indented))

theorem spells_map {α : Type} {items : List α} {line : α → String} {pieces : α → List Piece}
    (each : ∀ item ∈ items, Spells (line item) (pieces item)) :
    List.Forall₂ Spells (items.map line) (items.map pieces) := by
  rw [List.forall₂_map_left_iff, List.forall₂_map_right_iff]
  exact List.forall₂_same.2 each

theorem spells_enumeration {tag count : String} {members : List String} (isTag : IsName tag)
    (isCount : IsName count) (areMembers : ∀ member ∈ members, IsName member) :
    List.Forall₂ Spells (Declaration.enumeration tag members count).lines
      (Declaration.enumeration tag members count).pieces := by
  refine .cons (.plain ?_ ?_) (List.rel_append (spells_map ?_) (.cons ?_ (.cons (.plain ?_ ?_) .nil)))
  · simp [Piece.text]
  · intro rest
    simp +decide [Piece.Fits, Piece.text, endsRun_cons, isTag.1]
  · intro member present
    refine ⟨⟨4, by simp [Piece.text, List.replicate_succ]⟩, ?_⟩
    intro rest
    have identifier := (areMembers member present).1
    simp +decide [Piece.Fits, Piece.text, endsRun_cons, identifier]
  · refine ⟨⟨4, by simp [Piece.text, List.replicate_succ]⟩, ?_⟩
    intro rest
    simp +decide [Piece.Fits, endsRun_cons, isCount.1]
  · simp [Piece.text]
  · intro rest
    simp +decide [Piece.Fits]

theorem spells_nameArray {array size : String} (names : List String) (isArray : IsName array)
    (isSize : IsName size) :
    List.Forall₂ Spells (Declaration.nameArray array size names).lines
      (Declaration.nameArray array size names).pieces := by
  refine .cons (.plain ?_ ?_) (List.rel_append (spells_map ?_) (.cons (.plain ?_ ?_) .nil))
  · simp [Piece.text]
  · intro rest
    have apart := endsMark_identifier isArray.1
    simp +decide [Piece.Fits, Piece.text, endsRun_cons, endsMark_cons, isArray.1, isSize.1]
  · intro name present
    refine ⟨⟨4, by simp [Piece.text, List.replicate_succ]⟩, ?_⟩
    intro rest
    simp +decide [Piece.Fits]
  · simp [Piece.text]
  · intro rest
    simp +decide [Piece.Fits]

theorem lays_line {line : String} {pieces : List Piece} (text : spell pieces = line.toList)
    (separate : ∀ rest, Separate pieces ('\n' :: rest)) : Lays [line] (tokensOf [pieces].flatten) :=
  lays_of_spells (.cons (.plain text separate) .nil)

theorem lays_function {definition : Definition}
    (readable : (Declaration.function definition).Readable) :
    Lays definition.lines (Declaration.function definition).tokens := by
  obtain ⟨headReadable, bodyReadable⟩ := readable
  have head : Lays [definition.head.text] (tokensOf [definition.head.pieces].flatten) :=
    lays_line (spell_prototype _) fun rest => separate_prototype headReadable _
  have opened : Lays ["\x7b"] (tokensOf [[.mark "\x7b"]].flatten) := by
    apply lays_line
    · simp [Piece.text]
    · intro rest
      simp +decide [Piece.Fits]
  have closed : Lays ["\x7d"] (tokensOf [[.mark "\x7d"]].flatten) := by
    apply lays_line
    · simp [Piece.text]
    · intro rest
      simp +decide [Piece.Fits]
  have whole := ((head.append opened).append (lays_body bodyReadable)).append closed
  have same : (Declaration.function definition).tokens =
      tokensOf [definition.head.pieces].flatten ++ tokensOf [[.mark "\x7b"]].flatten ++
        definition.body.flatten.flatMap Statement.tokens ++ tokensOf [[.mark "\x7d"]].flatten := by
    simp [Declaration.tokens, Declaration.pieces, tokens_statements]
  rw [same]
  exact whole

theorem lays_declaration {declaration : Declaration} (readable : declaration.Readable) :
    Lays declaration.lines declaration.tokens := by
  cases declaration with
  | comment text =>
    obtain ⟨slash, plain⟩ := readable
    apply lays_line
    · simp [Piece.text]
    · intro rest
      simp +decide [Piece.Fits, slash, plain]
  | pragmaOnce =>
    apply lays_line
    · simp [Piece.text]
    · intro rest
      simp +decide [Piece.Fits]
  | includeSystem header =>
    obtain ⟨lineEnd, plain⟩ := readable
    apply lays_line
    · simp [Piece.text]
    · intro rest
      simp +decide [Piece.Fits, lineEnd, plain]
  | includeQuoted header =>
    obtain ⟨lineEnd, plain⟩ := readable
    apply lays_line
    · simp [Piece.text]
    · intro rest
      simp +decide [Piece.Fits, lineEnd, plain]
  | enumeration tag members count =>
    obtain ⟨isTag, isCount, areMembers⟩ := readable
    exact lays_of_spells (spells_enumeration isTag isCount areMembers)
  | nameArray array size names =>
    obtain ⟨isArray, isSize, _⟩ := readable
    exact lays_of_spells (spells_nameArray names isArray isSize)
  | prototype head =>
    apply lays_line
    · simp [Piece.text, spell_prototype]
    · intro rest
      simp +decide [Piece.Fits, separate_prototype readable]
  | function definition => exact lays_function readable

theorem lays_unit {unit : TranslationUnit}
    (readable : ∀ paragraph ∈ unit, ∀ declaration ∈ paragraph, declaration.Readable) :
    Lays (unitLines unit) (unit.flatten.flatMap Declaration.tokens) := by
  rw [← List.flatMap_id, List.flatMap_assoc]
  apply Lays.spaced
  intro paragraph member
  apply Lays.flatMap
  intro declaration present
  exact lays_declaration (readable paragraph member declaration present)

theorem ends_declaration (declaration : Declaration) : ∃ front first last,
    declaration.lines = front ++ [String.ofList (first ++ [last])] ∧
      Text.isBlank last = false := by
  cases declaration with
  | comment text =>
    refine ⟨[], "/* ".toList ++ text.toList ++ " *".toList, '/', ?_, by decide⟩
    simp [Declaration.lines, ← String.toList_inj]
  | pragmaOnce => exact ⟨[], "#pragma onc".toList, 'e', rfl, by decide⟩
  | includeSystem header =>
    refine ⟨[], "#include <".toList ++ header.toList, '>', ?_, by decide⟩
    simp [Declaration.lines, ← String.toList_inj]
  | includeQuoted header =>
    refine ⟨[], "#include \"".toList ++ header.toList, '"', ?_, by decide⟩
    simp [Declaration.lines, ← String.toList_inj]
  | enumeration tag members count =>
    refine ⟨["enum " ++ tag ++ " \x7b"] ++ members.map ("    " ++ · ++ ",") ++ ["    " ++ count],
      ['\x7d'], ';', ?_, by decide⟩
    simp [Declaration.lines]
  | nameArray array size names => exact ⟨_, ['\x7d'], ';', rfl, by decide⟩
  | prototype head =>
    refine ⟨[], head.text.toList, ';', ?_, by decide⟩
    simp [Declaration.lines]
  | function definition => exact ⟨_, [], '\x7d', rfl, by decide⟩

theorem laid_eq_joined {lines : List String} (inhabited : lines ≠ []) :
    laid lines = (joined lines).toList ++ ['\n'] := by
  induction lines with
  | nil => exact absurd rfl inhabited
  | cons line lines ih =>
    cases lines with
    | nil => simp [joined, laid]
    | cons next lines => simpa [joined] using ih (by simp)

theorem spaced_singleton (paragraph : List String) : spaced [paragraph] = paragraph :=
  List.intercalate_singleton

theorem spaced_cons (first : List String) {others : List (List String)} (more : others ≠ []) :
    spaced (first :: others) = first ++ [""] ++ spaced others :=
  List.intercalate_cons_of_ne_nil more

theorem spaced_append {front back : List (List String)} (begins : front ≠ []) (ends : back ≠ []) :
    spaced (front ++ back) = spaced front ++ [""] ++ spaced back := by
  induction front with
  | nil => exact absurd rfl begins
  | cons first others ih =>
    cases others with
    | nil => rw [List.singleton_append, spaced_cons first ends, spaced_singleton]
    | cons next others =>
      have more : next :: others ≠ [] := List.cons_ne_nil _ _
      rw [List.cons_append, spaced_cons first (by simp), ih more, spaced_cons first more]
      simp only [List.append_assoc]

theorem spaced_concat (paragraphs : List (List String)) (paragraph : List String) :
    ∃ front, spaced (paragraphs ++ [paragraph]) = front ++ paragraph := by
  by_cases empty : paragraphs = []
  · exact ⟨[], by rw [empty, List.nil_append, List.nil_append, spaced_singleton]⟩
  · exact ⟨spaced paragraphs ++ [""], by rw [spaced_append empty (by simp), spaced_singleton]⟩

theorem mem_spaced {paragraphs : List (List String)} {line : String}
    (member : line ∈ spaced paragraphs) : line = "" ∨ ∃ paragraph ∈ paragraphs, line ∈ paragraph := by
  induction paragraphs with
  | nil => simp [spaced] at member
  | cons paragraph paragraphs ih =>
    by_cases more : paragraphs = []
    · rw [more, spaced_singleton] at member
      exact .inr ⟨paragraph, by simp, member⟩
    · rw [spaced_cons paragraph more, List.mem_append, List.mem_append, List.mem_singleton] at member
      obtain (inside | blank) | behind := member
      · exact .inr ⟨paragraph, by simp, inside⟩
      · exact .inl blank
      · obtain blank | ⟨other, listed, inside⟩ := ih behind
        · exact .inl blank
        · exact .inr ⟨other, by simp [listed], inside⟩

theorem joined_concat (lines : List String) (line : String) :
    ∃ front, (joined (lines ++ [line])).toList = front ++ line.toList := by
  cases lines with
  | nil => exact ⟨[], by simp [joined]⟩
  | cons first others =>
    refine ⟨(joined (first :: others)).toList ++ ['\n'], ?_⟩
    rw [joined, String.intercalate_append_of_ne_nil (by simp) (by simp)]
    simp [joined]

/-- Before its last line end a file has something else than white space. -/
theorem ends_unit (unit : TranslationUnit) (paragraph : List Declaration)
    (declaration : Declaration) : unitLines (unit ++ [paragraph ++ [declaration]]) ≠ [] ∧
      ∃ front last, (joined (unitLines (unit ++ [paragraph ++ [declaration]]))).toList =
        front ++ [last] ∧ Text.isBlank last = false := by
  obtain ⟨front, first, last, lines, solid⟩ := ends_declaration declaration
  obtain ⟨before, same⟩ := spaced_concat (unit.map fun group => group.flatMap Declaration.lines)
    ((paragraph ++ [declaration]).flatMap Declaration.lines)
  have ends : unitLines (unit ++ [paragraph ++ [declaration]]) =
      (before ++ paragraph.flatMap Declaration.lines ++ front) ++ [String.ofList (first ++ [last])] := by
    rw [unitLines, List.map_append, List.map_singleton, same]
    simp [lines]
  obtain ⟨text, joinedText⟩ := joined_concat
    (before ++ paragraph.flatMap Declaration.lines ++ front) (String.ofList (first ++ [last]))
  rw [ends, joinedText, String.toList_ofList]
  exact ⟨by simp, text ++ first, last, (List.append_assoc _ _ _).symm, solid⟩

/-- A text that ends with something else than white space is ended as it is, and also with white space behind
it. -/
theorem finished_append_blanks {text : String} {front : List Char} {last : Char}
    (blanks : List Char) (ends : text.toList = front ++ [last]) (solid : Text.isBlank last = false)
    (blank : ∀ c ∈ blanks, Text.isBlank c) :
    finished (text ++ String.ofList blanks) = text ++ "\n" := by
  rw [finished, String.toList_append, String.toList_ofList, Text.trimEnd_append_blanks _ blank,
    Text.trimEnd_eq_self, String.ofList_toList]
  intro c member
  rw [ends] at member
  obtain rfl : last = c := by simpa using member
  exact solid

/-- A file is its lines, and nothing is taken from its end. -/
theorem unitText_eq_joined {unit : TranslationUnit} {paragraph : List Declaration}
    (declaration : Declaration) : unitText (unit ++ [paragraph ++ [declaration]]) =
      joined (unitLines (unit ++ [paragraph ++ [declaration]])) ++ "\n" := by
  obtain ⟨_, _, _, ends, solid⟩ := ends_unit unit paragraph declaration
  have none := finished_append_blanks [] ends solid (by simp)
  rwa [String.ofList_nil, String.append_empty] at none

theorem unitText_eq_laid {unit : TranslationUnit} {paragraph : List Declaration}
    (declaration : Declaration) :
    (unitText (unit ++ [paragraph ++ [declaration]])).toList =
      laid (unitLines (unit ++ [paragraph ++ [declaration]])) := by
  rw [unitText_eq_joined, laid_eq_joined (ends_unit unit paragraph declaration).1, String.toList_append]
  rfl

/-- One declaration in the midst of a file stands between line ends of its own. -/
theorem unitText_around {front unit whole : TranslationUnit} {paragraph : List Declaration}
    {last : Declaration} (parts : whole = unit ++ [paragraph ++ [last]]) (begins : front ≠ [])
    (middle : Declaration) :
    ∃ before after,
      unitText (front ++ [[middle]] ++ whole) = before ++ joined middle.lines ++ "\n\n" ++ after ∧
        unitText (front ++ whole) = before ++ after := by
  let lines (group : TranslationUnit) := group.map fun paragraph => paragraph.flatMap Declaration.lines
  have inhabited : lines whole ≠ [] := by simp [lines, parts]
  have opened : lines front ≠ [] := by simpa [lines] using begins
  have solid : middle.lines ≠ [] := by
    obtain ⟨_, _, _, shape, _⟩ := ends_declaration middle
    simp [shape]
  have without : (unitText (front ++ whole)).toList =
      laid (spaced (lines front) ++ [""]) ++ laid (spaced (lines whole)) := by
    rw [parts, ← List.append_assoc, unitText_eq_laid, List.append_assoc, ← parts, unitLines,
      List.map_append, spaced_append opened inhabited, laid_append]
  have within : (unitText (front ++ [[middle]] ++ whole)).toList =
      laid (spaced (lines front) ++ [""]) ++ laid middle.lines ++ laid [""] ++
        laid (spaced (lines whole)) := by
    rw [parts, ← List.append_assoc, unitText_eq_laid, List.append_assoc, ← parts, unitLines,
      List.map_append, spaced_append (by simp) inhabited, List.map_append,
      spaced_append opened (by simp), laid_append, laid_append, laid_append]
    simp [spaced_singleton, lines]
  -- The blank line behind the front stays, the one behind the declaration goes with it.
  refine ⟨String.ofList (laid (spaced (lines front) ++ [""])),
    String.ofList (laid (spaced (lines whole))), ?_, ?_⟩
  · rw [← String.toList_inj, within, laid_eq_joined solid]
    simp [laid]
  · rw [← String.toList_inj, without]
    simp

theorem tokens_unitText {unit : TranslationUnit} {paragraph : List Declaration}
    {declaration : Declaration} {whole : TranslationUnit}
    (parts : whole = unit ++ [paragraph ++ [declaration]])
    (readable : ∀ paragraph ∈ whole, ∀ declaration ∈ paragraph, declaration.Readable) :
    tokens (logical (unitText whole).toList) = whole.flatten.flatMap Declaration.tokens := by
  subst parts
  have lays := lays_unit readable
  have all := lays.read []
  rw [List.append_nil] at all
  rw [unitText_eq_laid, logical_eq_self lays.solid.calm, all, tokens, List.append_nil]

end PetriCode.C
