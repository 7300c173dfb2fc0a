import PetriCode.Proofs.C.Lines

/-! Reading what was printed. Each reader takes back the data that the pieces in front of it were
made of and leaves what follows them. -/
namespace PetriCode.C

section Simple
variable {text : String}

theorem name_word (isName : IsName text) (rest : List Token) :
    Reader.name (.word text :: rest) = some (text, rest) := by
  simp [Reader.name, isName.2]

theorem typeName_word (isName : IsTypeName text) (rest : List Token) :
    Reader.typeName (.word text :: rest) = some (text, rest) := by
  have type := isName.2
  simp only [Reader.typeName]
  rw [if_neg]
  tauto

theorem IsTypeName.ne (isName : IsTypeName text) (other : String)
    (keyword : other ∈ keywords ∧ other ≠ "char") : text ≠ other := by
  have type := isName.2
  rintro rfl
  tauto

theorem weight_number (value : Weight) (rest : List Token) :
    Reader.weight (.number value.toNat :: rest) = some (value, rest) := by
  simp [Reader.weight, value.toNat_lt_size]

end Simple

theorem operand_tokens {operand : Operand} (readable : operand.Readable) {rest : List Token}
    (next : rest.head? ≠ some (.mark "[")) :
    Reader.operand (tokensOf operand.pieces ++ rest) = some (operand, rest) := by
  cases operand with
  | name identifier =>
    have read := name_word readable rest
    simp [Reader.operand, Reader.weight, Operand.pieces, read, next]
  | number value =>
    have read := weight_number value rest
    simp [Reader.operand, Operand.pieces, read]
  | element array index =>
    have first := name_word readable.1
    have second := name_word readable.2
    simp [Reader.operand, Reader.weight, Operand.pieces, first, second, Reader.expect]

theorem declared_tokens {declared : Variable} (readable : declared.Readable) (rest : List Token) :
    Reader.declared (tokensOf declared.pieces ++ rest) = some (declared, rest) := by
  obtain ⟨type, name⟩ := declared
  obtain ⟨typeReadable, isName⟩ := readable
  have target := name_word isName
  cases type with
  | plain type =>
    have source := typeName_word typeReadable
    have notConst := IsTypeName.ne typeReadable "const" (by decide)
    simp [Reader.declared, Variable.pieces, TypeName.pieces, notConst, source, target]
  | pointer type =>
    have source := typeName_word typeReadable
    have notConst := IsTypeName.ne typeReadable "const" (by decide)
    simp [Reader.declared, Variable.pieces, TypeName.pieces, notConst, source, target]
  | constPointer type =>
    have source := typeName_word typeReadable
    simp [Reader.declared, Variable.pieces, TypeName.pieces, Reader.expect, source,
      target]

/-- The keywords that a statement or an item may begin with and a declaration does not, and the one
that an empty list of parameters consists of. -/
def starters : List String := ["return", "if", "for", "enum", "static", "void"]

theorem opens_variable {declared : Variable} (readable : declared.Readable) :
    ∃ first second more, tokensOf declared.pieces = .word first :: second :: more ∧
      first ∉ starters ∧ second ≠ .mark "(" := by
  obtain ⟨type, name⟩ := declared
  obtain ⟨typeReadable, isName⟩ := readable
  have other (type : String) (isType : IsTypeName type) : type ∉ starters := by
    intro member
    have keyword : ∀ text ∈ starters, text ∈ keywords ∧ text ≠ "char" := by decide
    exact isType.ne type (keyword type member) rfl
  cases type with
  | plain type => exact ⟨type, .word name, [], rfl, other type typeReadable, by simp⟩
  | pointer type => exact ⟨type, .mark "*", _, rfl, other type typeReadable, by simp⟩
  | constPointer type => exact ⟨"const", .word type, _, rfl, by decide, by simp⟩

theorem prototype_tokens {head : Prototype} (readable : head.Readable) (rest : List Token) :
    Reader.prototype (tokensOf head.pieces ++ rest) = some (head, rest) := by
  obtain ⟨result, name, parameter⟩ := head
  obtain ⟨resultReadable, isName, parameterReadable⟩ := readable
  have target : (⟨result, name⟩ : Variable).Readable := ⟨resultReadable, isName⟩
  have declared := declared_tokens target
  simp only [Variable.pieces] at declared
  cases parameter with
  | none =>
    simp [Reader.prototype, Prototype.pieces, declared, Reader.expect]
  | some parameter =>
    have single := parameterReadable parameter rfl
    have inner := declared_tokens single
    obtain ⟨first, second, more, shape, other, _⟩ := opens_variable single
    have notVoid : first ≠ "void" := fun same => other (by rw [same]; decide)
    simp only [shape, List.cons_append] at inner
    simp [Reader.prototype, Prototype.pieces, declared, Reader.expect, shape, inner, notVoid]

theorem comparison_tokens {condition : Condition} (readable : condition.Readable)
    (comparison : condition.IsComparison) (rest : List Token) :
    Reader.comparison (tokensOf condition.pieces ++ rest) = some (condition, rest) := by
  cases condition with
  | isNull pointer =>
    have name := name_word readable
    simp [Reader.comparison, Condition.pieces, name, Reader.expect]
  | isEmptyText pointer =>
    have name := name_word readable
    simp [Reader.comparison, Condition.pieces, name, Reader.expect]
  | atLeast left right =>
    have first := name_word readable.1
    have second := name_word readable.2
    simp [Reader.comparison, Condition.pieces, first, second, Reader.expect]
  | sameText left right =>
    have strcmp := name_word (show IsName "strcmp" by decide)
    have first (after : List Token) :
        Reader.operand (tokensOf left.pieces ++ .mark "," :: after) = _ :=
      operand_tokens readable.1 (by simp)
    have second (after : List Token) :
        Reader.operand (tokensOf right.pieces ++ .mark ")" :: after) = _ :=
      operand_tokens readable.2 (by simp)
    simp [Reader.comparison, Condition.pieces, strcmp, first, second, Reader.expect]
  | either left right => exact absurd comparison id

theorem condition_tokens {condition : Condition} (readable : condition.Readable)
    {rest : List Token} (next : rest.head? ≠ some (.mark "||")) :
    Reader.condition (tokensOf condition.pieces ++ rest) = some (condition, rest) := by
  cases condition with
  | either left right =>
    obtain ⟨⟨leftShape, leftReadable⟩, rightShape, rightReadable⟩ := readable
    have first (after : List Token) := comparison_tokens leftReadable leftShape after
    have second (after : List Token) := comparison_tokens rightReadable rightShape after
    simp [Reader.condition, Condition.pieces, first, second]
  | _ =>
    have single := comparison_tokens readable trivial rest
    simp [Reader.condition, single, next]

/-- A reader takes an item from its tokens when a comma or the closing mark is next. -/
structure Takes {α : Type} (read : Reader α) (close : String) (item : α) (front : List Token) :
    Prop where
  opens : ∃ first more, front = first :: more ∧ first ≠ .mark close
  takes : ∀ separator, separator = "," ∨ separator = close → ∀ rest,
    read (front ++ .mark separator :: rest) = some (item, .mark separator :: rest)

/-- Items with a comma behind each but the last, behind which one may be left. -/
theorem listed_tokens {α : Type} {read : Reader α} {close : String} (trailing : Bool)
    {toks : α → List Token} {front : List α} {last : α}
    (each : ∀ item ∈ front ++ [last], Takes read close item (toks item)) (apart : close ≠ ",")
    {ending : List Token} (ends : ending = [.mark close] ∨
      trailing = true ∧ ending = [.mark ",", .mark close]) (rest : List Token) :
    Reader.listed read trailing close (front.flatMap (fun item => toks item ++ [Token.mark ","]) ++
      (toks last ++ (ending ++ rest))) = some (front ++ [last], rest) := by
  have shorter {item : α} (taken : Takes read close item (toks item)) (behind : List Token) :
      behind.length < (toks item ++ behind).length := by
    obtain ⟨first, more, shape, _⟩ := taken.opens
    rw [shape, List.length_append, List.length_cons]
    omega
  induction front with
  | nil =>
    have single := each last (by simp)
    rw [Reader.listed, List.flatMap_nil, List.nil_append]
    obtain rfl | ⟨rfl, rfl⟩ := ends
    · have whole := single.takes close (.inr rfl) rest
      rw [List.singleton_append, whole]
      exact if_pos rfl
    · have whole := single.takes "," (.inl rfl) (.mark close :: rest)
      rw [List.cons_append, List.singleton_append, whole]
      dsimp only
      rw [if_neg (by simpa using apart.symm), if_pos ⟨rfl, shorter single _⟩]
      exact if_pos ⟨rfl, rfl⟩
  | cons item front ih =>
    obtain ⟨first, others⟩ := List.forall_mem_cons.1 each
    have tail := ih others
    -- Behind a comma the closing mark would end the list, so the next item must not begin with it.
    generalize after : front.flatMap (fun item => toks item ++ [Token.mark ","]) ++
      (toks last ++ (ending ++ rest)) = behind at tail
    have next : behind.head? ≠ some (.mark close) := by
      cases front with
      | nil =>
        obtain ⟨⟨first, more, shape, other⟩, _⟩ := each last (by simp)
        simpa [← after, shape] using other
      | cons second front =>
        obtain ⟨⟨first, more, shape, other⟩, _⟩ := each second (by simp)
        simpa [← after, shape] using other
    have whole := first.takes "," (.inl rfl) behind
    rw [Reader.listed, List.flatMap_cons, List.append_assoc, List.append_assoc, after,
      List.singleton_append, whole]
    dsimp only
    rw [if_neg (by simpa using apart.symm), if_pos ⟨rfl, shorter first _⟩,
      if_neg (fun trailing => next trailing.2), List.tail_cons, tail]
    rfl

theorem tokensOf_commas {α : Type} (pieces : α → List Piece) (front : List α) (last : α) :
    tokensOf (commas ((front ++ [last]).map pieces)) =
      front.flatMap (fun item => tokensOf (pieces item) ++ [Token.mark ","]) ++
        tokensOf (pieces last) := by
  unfold commas
  induction front with
  | nil => simp
  | cons item front ih =>
    cases front with
    | nil => simp
    | cons next front => simp_all

theorem tokensOf_commas_cons {α : Type} (pieces : α → List Piece) (first : α) (others : List α) :
    ∃ behind, tokensOf (commas ((first :: others).map pieces)) =
      tokensOf (pieces first) ++ behind := by
  cases others with
  | nil => exact ⟨[], by simp [commas]⟩
  | cons next others => exact ⟨_, by simp [commas]; rfl⟩

theorem listed_commas {α : Type} {read : Reader α} {close : String} (trailing : Bool)
    {pieces : α → List Piece} {items : List α} (inhabited : items ≠ [])
    (each : ∀ item ∈ items, Takes read close item (tokensOf (pieces item))) (apart : close ≠ ",")
    (rest : List Token) :
    Reader.listed read trailing close
      (tokensOf (commas (items.map pieces)) ++ .mark close :: rest) = some (items, rest) := by
  obtain ⟨front, last, rfl⟩ : ∃ front last, items = front ++ [last] :=
    ⟨items.dropLast, items.getLast inhabited, (List.dropLast_append_getLast inhabited).symm⟩
  rw [tokensOf_commas, List.append_assoc]
  exact listed_tokens trailing each apart (.inl rfl) rest

theorem takes_operand {operand : Operand} (readable : operand.Readable) :
    Takes Reader.operand ")" operand (tokensOf operand.pieces) := by
  constructor
  · cases operand <;> simp [Operand.pieces]
  · intro separator either rest
    apply operand_tokens readable
    obtain rfl | rfl := either <;> simp

theorem call_tokens {function : String} {arguments : List Operand} (isName : IsName function)
    (readable : ∀ argument ∈ arguments, argument.Readable) (rest : List Token) :
    Reader.call (tokensOf (callPieces function arguments) ++ .mark ";" :: rest) =
      some ((function, arguments), rest) := by
  have name := name_word isName
  have values (after : List Token) : Reader.arguments
      (tokensOf (commas (arguments.map Operand.pieces)) ++ .mark ")" :: after) =
        some (arguments, after) := by
    unfold Reader.arguments
    cases arguments with
    | nil => simp [commas]
    | cons first others =>
      have each : ∀ argument ∈ first :: others,
          Takes Reader.operand ")" argument (tokensOf argument.pieces) :=
        fun argument member => takes_operand (readable argument member)
      obtain ⟨⟨head, more, shape, other⟩, _⟩ := each first (by simp)
      obtain ⟨behind, split⟩ := tokensOf_commas_cons Operand.pieces first others
      rw [if_neg, listed_commas false (by simp) each (by decide)]
      rw [split, shape]
      simpa using other
  simp [Reader.call, callPieces, name, Reader.expect, values]

theorem definition_define {result : Variable} {function : String} {arguments : List Operand}
    (readable : (Statement.define result function arguments).Readable) (rest : List Token) :
    Reader.definition ((Statement.define result function arguments).tokens ++ rest) =
      some (.define result function arguments, rest) := by
  obtain ⟨resultReadable, isName, argumentsReadable⟩ := readable
  have declared := declared_tokens resultReadable
  have call := call_tokens isName argumentsReadable rest
  simp [Reader.definition, Statement.tokens, Statement.pieces, declared, Reader.expect, call]

theorem definition_array {type name size : String} {values : List Weight}
    (readable : (Statement.defineArray type name size values).Readable) (rest : List Token) :
    Reader.definition ((Statement.defineArray type name size values).tokens ++ rest) =
      some (.defineArray type name size values, rest) := by
  obtain ⟨isType, isName, isSize, inhabited⟩ := readable
  have target : (⟨.plain type, name⟩ : Variable).Readable := ⟨isType, isName⟩
  have declared := declared_tokens target
  simp only [Variable.pieces, TypeName.pieces, tokensOf_word, tokensOf_space, tokensOf_nil,
    List.cons_append, List.nil_append] at declared
  have dimension := name_word isSize
  have each : ∀ value ∈ values, Takes Reader.weight "\x7d" value (tokensOf [.number value]) := by
    intro value _
    constructor
    · simp
    · intro separator _ rest
      exact weight_number value _
  have listed := listed_commas true inhabited each (by decide)
  simp [Reader.definition, Statement.tokens, Statement.pieces, declared, Reader.expect, dimension,
    listed]

theorem plainStatement_definition {tokens : List Token} {first : String} {second : Token}
    {more : List Token} (shape : tokens = .word first :: second :: more)
    (other : first ∉ starters) (notCall : second ≠ .mark "(") :
    Reader.plainStatement tokens = Reader.definition tokens ∧
      tokens.head? ≠ some (.word "for") := by
  simp only [starters, List.mem_cons, List.not_mem_nil, or_false, not_or] at other
  subst shape
  simp [Reader.plainStatement, other, notCall]

def Statement.IsPlain : Statement → Prop
  | countUp _ _ _ _ => False
  | _ => True

theorem plainStatement_tokens {statement : Statement} (readable : statement.Readable)
    (plain : statement.IsPlain) (rest : List Token) :
    Reader.plainStatement (statement.tokens ++ rest) = some (statement, rest) ∧
      (statement.tokens ++ rest).head? ≠ some (.word "for") := by
  cases statement with
  | define result function arguments =>
    obtain ⟨first, second, more, shape, other, notCall⟩ := opens_variable readable.1
    obtain ⟨behind, whole⟩ : ∃ behind, (Statement.define result function arguments).tokens ++ rest =
        .word first :: second :: behind := by
      simp [Statement.tokens, Statement.pieces, shape]
    obtain ⟨same, notFor⟩ := plainStatement_definition whole other notCall
    exact ⟨same.trans (definition_define readable rest), notFor⟩
  | defineArray type name size values =>
    obtain ⟨first, second, more, shape, other, notCall⟩ :=
      opens_variable (show (⟨.plain type, name⟩ : Variable).Readable from
        ⟨readable.1, readable.2.1⟩)
    simp only [Variable.pieces, TypeName.pieces, tokensOf_word, tokensOf_space, tokensOf_nil,
      List.cons.injEq, Token.word.injEq] at shape
    obtain ⟨rfl, rfl, _⟩ := shape
    obtain ⟨behind, whole⟩ : ∃ behind, (Statement.defineArray type name size values).tokens ++ rest =
        .word type :: .word name :: behind := ⟨_, rfl⟩
    obtain ⟨same, notFor⟩ := plainStatement_definition whole other notCall
    exact ⟨same.trans (definition_array readable rest), notFor⟩
  | call function arguments =>
    have read := call_tokens readable.1 readable.2 rest
    have others (keyword : String) (isKeyword : keyword ∈ keywords) : function ≠ keyword := by
      rintro rfl
      exact readable.1.2 isKeyword
    simp only [callPieces, tokensOf_append, tokensOf_word, tokensOf_mark, tokensOf_nil,
      List.append_assoc, List.cons_append, List.nil_append] at read
    simp [Reader.plainStatement, Statement.tokens, Statement.pieces, callPieces, read,
      others "return" (by decide), others "if" (by decide), others "for" (by decide)]
  | discard name =>
    have read := name_word readable
    simp [Reader.plainStatement, Statement.tokens, Statement.pieces, Reader.expect, read]
  | returns value =>
    have read : Reader.operand (tokensOf value.pieces ++ .mark ";" :: rest) = _ :=
      operand_tokens readable (by simp)
    simp [Reader.plainStatement, Statement.tokens, Statement.pieces, Reader.expect, read]
  | returnsIf condition value =>
    have test (after : List Token) :
        Reader.condition (tokensOf condition.pieces ++ .mark ")" :: after) = _ :=
      condition_tokens readable.1 (by simp)
    have read : Reader.operand (tokensOf value.pieces ++ .mark ";" :: rest) = _ :=
      operand_tokens readable.2 (by simp)
    simp [Reader.plainStatement, Statement.tokens, Statement.pieces, Reader.expect, test, read]
  | countUp type index bound body => exact absurd plain id

theorem statement_tokens {statement : Statement} (readable : statement.Readable)
    (rest : List Token) :
    Reader.statement (statement.tokens ++ rest) = some (statement, rest) := by
  induction statement generalizing rest with
  | countUp type index bound body ih =>
    obtain ⟨isType, isIndex, isBound, bodyReadable⟩ := readable
    have typeRead := typeName_word isType
    have indexRead := name_word isIndex
    have boundRead := name_word isBound
    have inner := ih bodyReadable (.mark "\x7d" :: rest)
    simp only [Statement.tokens] at inner
    rw [Reader.statement]
    simp [Statement.tokens, Statement.pieces, Reader.loopHead, Reader.expect, typeRead, indexRead,
      boundRead, inner]
    omega
  | _ =>
    obtain ⟨read, notFor⟩ := plainStatement_tokens readable trivial rest
    rw [Reader.statement, if_neg notFor, read]

theorem opens_statement {statement : Statement} (readable : statement.Readable) :
    ∃ first more, statement.tokens = first :: more ∧ first ≠ .mark "\x7d" := by
  cases statement with
  | define result function arguments =>
    obtain ⟨first, second, more, shape, _⟩ := opens_variable readable.1
    exact ⟨.word first, by simp [Statement.tokens, Statement.pieces, shape]⟩
  | _ => exact ⟨_, _, rfl, by simp⟩

theorem block_tokens {statements : List Statement}
    (readable : ∀ statement ∈ statements, statement.Readable) (rest : List Token) :
    Reader.block (statements.flatMap Statement.tokens ++ .mark "\x7d" :: rest) =
      some (statements, rest) := by
  induction statements with
  | nil =>
    rw [Reader.block]
    simp
  | cons statement statements ih =>
    obtain ⟨single, others⟩ := List.forall_mem_cons.1 readable
    obtain ⟨first, more, shape, notClose⟩ := opens_statement single
    have read := statement_tokens single
    have behind := ih others
    rw [shape] at read
    rw [Reader.block, List.flatMap_cons, List.append_assoc, shape]
    generalize statements.flatMap Statement.tokens ++ .mark "\x7d" :: rest = after at read behind ⊢
    have shorter : after.length < (first :: more ++ after).length := by
      rw [List.length_append, List.length_cons]
      omega
    rw [if_neg (by simpa using notClose), read after]
    dsimp only
    rw [if_pos shorter, behind]
    rfl

/-- What a declaration is read as. A comment is not read at all. -/
def Declaration.item? : Declaration → Option Item
  | comment _ => none
  | pragmaOnce => some (.directive "pragma once")
  | includeSystem header => some (.directive ("include <" ++ header ++ ">"))
  | includeQuoted header => some (.directive ("include \"" ++ header ++ "\""))
  | enumeration tag members count => some (.enumeration tag (members ++ [count]))
  | nameArray array size names => some (.nameArray array size (names.map bytes))
  | prototype head => some (.prototype head)
  | function definition => some (.function definition.head definition.body.flatten)

theorem item_function {head : Prototype} (readable : head.Readable) (rest : List Token) :
    Reader.item (tokensOf head.pieces ++ rest) = Reader.function (tokensOf head.pieces ++ rest) := by
  obtain ⟨first, second, more, shape, other, _⟩ :=
    opens_variable (show (⟨head.result, head.name⟩ : Variable).Readable from
      ⟨readable.result, readable.name⟩)
  obtain ⟨behind, whole⟩ : ∃ behind, tokensOf head.pieces ++ rest = .word first :: behind := by
    simp only [Variable.pieces] at shape
    simp [Prototype.pieces, shape]
  simp only [starters, List.mem_cons, List.not_mem_nil, or_false, not_or] at other
  rw [whole]
  simp [Reader.item, other]

theorem tokensOf_map {α : Type} (pieces : α → List Piece) (items : List α) :
    tokensOf (items.map pieces).flatten = items.flatMap fun item => tokensOf (pieces item) := by
  induction items with
  | nil => rfl
  | cons item items ih => simp [ih]

theorem item_enumeration {tag count : String} {members : List String} (isTag : IsName tag)
    (isCount : IsName count) (areMembers : ∀ member ∈ members, IsName member)
    (rest : List Token) :
    Reader.item ((Declaration.enumeration tag members count).tokens ++ rest) =
      some (.enumeration tag (members ++ [count]), rest) := by
  have tagRead := name_word isTag
  have each : ∀ member ∈ members ++ [count], Takes Reader.name "\x7d" member [.word member] := by
    intro member present
    have isName : IsName member := by
      obtain inner | last := List.mem_append.1 present
      · exact areMembers member inner
      · exact List.mem_singleton.1 last ▸ isCount
    exact ⟨⟨_, _, rfl, by simp⟩, fun separator _ rest => name_word isName _⟩
  have listed := listed_tokens true each (by decide) (.inl rfl)
  simp only [List.cons_append, List.nil_append] at listed
  simp [Reader.item, Reader.enumeration, Declaration.tokens, Declaration.pieces, Reader.expect,
    tagRead, tokensOf_map, listed]

theorem item_nameArray {array size : String} {names : List String} (isArray : IsName array)
    (isSize : IsName size) (inhabited : names ≠ []) (rest : List Token) :
    Reader.item ((Declaration.nameArray array size names).tokens ++ rest) =
      some (.nameArray array size (names.map bytes), rest) := by
  have arrayRead := name_word isArray
  have sizeRead := name_word isSize
  obtain ⟨front, last, rfl⟩ : ∃ front last, names = front ++ [last] :=
    ⟨names.dropLast, names.getLast inhabited, (List.dropLast_append_getLast inhabited).symm⟩
  have each : ∀ text ∈ front.map bytes ++ [bytes last],
      Takes Reader.literal "\x7d" text [.literal text] := by
    intro text _
    exact ⟨⟨_, _, rfl, by simp⟩, fun separator _ rest => rfl⟩
  have listed := listed_tokens true each (by decide) (.inr ⟨rfl, rfl⟩)
  simp only [List.flatMap_map, List.cons_append, List.nil_append] at listed
  simp [Reader.item, Reader.nameArray, Declaration.tokens, Declaration.pieces, Reader.expect,
    arrayRead, sizeRead, tokensOf_map, listed]

theorem item_tokens {declaration : Declaration} (readable : declaration.Readable) {item : Item}
    (same : declaration.item? = some item) (rest : List Token) :
    Reader.item (declaration.tokens ++ rest) = some (item, rest) := by
  cases declaration with
  | comment text => cases same
  | pragmaOnce => cases same; rfl
  | includeSystem header => cases same; rfl
  | includeQuoted header => cases same; rfl
  | enumeration tag members count =>
    cases same
    obtain ⟨isTag, isCount, areMembers⟩ := readable
    exact item_enumeration isTag isCount areMembers rest
  | nameArray array size names =>
    cases same
    obtain ⟨isArray, isSize, inhabited⟩ := readable
    exact item_nameArray isArray isSize inhabited rest
  | prototype head =>
    cases same
    have read := prototype_tokens readable
    have dispatch := item_function readable
    simp [Declaration.tokens, Declaration.pieces, dispatch, Reader.function, read]
  | function definition =>
    cases same
    obtain ⟨headReadable, bodyReadable⟩ := readable
    have read := prototype_tokens headReadable
    have dispatch := item_function headReadable
    have statements : ∀ statement ∈ definition.body.flatten, statement.Readable := by
      intro statement member
      obtain ⟨group, present, inside⟩ := List.mem_flatten.1 member
      exact bodyReadable group present statement inside
    have body := block_tokens statements rest
    simp [Declaration.tokens, Declaration.pieces, dispatch, Reader.function, read, Reader.expect,
      tokens_statements, body]

theorem items_tokens {declarations : List Declaration}
    (readable : ∀ declaration ∈ declarations, declaration.Readable) :
    Reader.items (declarations.flatMap Declaration.tokens) =
      some (declarations.filterMap Declaration.item?) := by
  induction declarations with
  | nil => rw [Reader.items]; rfl
  | cons declaration declarations ih =>
    obtain ⟨single, others⟩ := List.forall_mem_cons.1 readable
    have behind := ih others
    rw [List.flatMap_cons]
    cases same : declaration.item? with
    | none =>
      have silent : declaration.tokens = [] := by
        cases declaration <;> first | rfl | cases same
      rw [silent, List.nil_append, behind, List.filterMap_cons_none same]
    | some item =>
      have read := item_tokens single same (declarations.flatMap Declaration.tokens)
      have inhabited : declaration.tokens ≠ [] := by
        intro silent
        have nothing := item_tokens single same []
        rw [silent] at nothing
        cases nothing
      have shorter := List.length_pos_iff.2 inhabited
      rw [Reader.items, if_neg (by simp [inhabited])]
      simp only [read]
      rw [if_pos (by rw [List.length_append]; omega), behind, List.filterMap_cons_some same]
      rfl

theorem read_unitText (whole : TranslationUnit) {unit : TranslationUnit}
    {paragraph : List Declaration} {declaration : Declaration} (parts : whole = unit ++ [paragraph ++ [declaration]])
    (readable : ∀ paragraph ∈ whole, ∀ declaration ∈ paragraph, declaration.Readable) :
    read (unitText whole) = some (whole.flatten.filterMap Declaration.item?) := by
  have each : ∀ declaration ∈ whole.flatten, declaration.Readable := by
    intro declaration member
    obtain ⟨paragraph, present, inside⟩ := List.mem_flatten.1 member
    exact readable paragraph present declaration inside
  rw [read, tokens_unitText parts readable, items_tokens each]

end PetriCode.C
