import PetriCode.Proofs.C.Reading

/-! The words of a text of C, and the names that it brings in. Words are the keywords and names anywhere
outside comments, literals and directives. Names are brought in by items, and are therefore those that
a reader of the text knows. -/
namespace PetriCode.C

def Token.word? : Token → Option String
  | word text => some text
  | _ => none

/-- The words of a text, from its tokens. -/
def words (text : String) : List String := (tokens (logical text.toList)).filterMap Token.word?

@[simp] def Piece.word? : Piece → Option String
  | word text => some text
  | _ => none

def wordsOf (pieces : List Piece) : List String := pieces.filterMap Piece.word?

def Variable.words (declared : Variable) : List String := wordsOf declared.pieces

def Prototype.words (head : Prototype) : List String := wordsOf head.pieces

def Operand.words (operand : Operand) : List String := wordsOf operand.pieces

def Condition.words (condition : Condition) : List String := wordsOf condition.pieces

def Statement.words (statement : Statement) : List String := wordsOf statement.pieces.flatten

def Declaration.words (declaration : Declaration) : List String :=
  wordsOf declaration.pieces.flatten

section Pieces
variable (piece : Piece) (pieces others : List Piece)

@[simp] theorem wordsOf_nil : wordsOf [] = [] := rfl

@[simp] theorem wordsOf_append : wordsOf (pieces ++ others) = wordsOf pieces ++ wordsOf others :=
  List.filterMap_append

@[simp] theorem wordsOf_cons : wordsOf (piece :: pieces) = piece.word?.toList ++ wordsOf pieces := by
  cases piece <;> rfl

theorem words_tokensOf : (tokensOf pieces).filterMap Token.word? = wordsOf pieces := by
  have same (piece : Piece) : piece.token.bind Token.word? = piece.word? := by
    cases piece <;> rfl
  simp only [tokensOf, wordsOf, List.filterMap_filterMap, same]

@[simp] theorem wordsOf_commas (items : List (List Piece)) :
    wordsOf (commas items) = items.flatMap wordsOf := by
  unfold commas
  induction items with
  | nil => rfl
  | cons item items ih =>
    cases items with
    | nil => simp
    | cons next items => simpa using ih

end Pieces

section Statements

@[simp] theorem words_variable (type : TypeName) (name : String) :
    (⟨type, name⟩ : Variable).words = wordsOf (type.pieces name) := rfl

@[simp] theorem words_plain (type name : String) :
    wordsOf ((TypeName.plain type).pieces name) = [type, name] := rfl

@[simp] theorem words_pointer (type name : String) :
    wordsOf ((TypeName.pointer type).pieces name) = [type, name] := rfl

@[simp] theorem words_constPointer (type name : String) :
    wordsOf ((TypeName.constPointer type).pieces name) = ["const", type, name] := rfl

@[simp] theorem words_name (identifier : String) : (Operand.name identifier).words = [identifier] :=
  rfl

@[simp] theorem words_number (value : Weight) : (Operand.number value).words = [] := rfl

@[simp] theorem words_element (array index : String) :
    (Operand.element array index).words = [array, index] := rfl

@[simp] theorem words_isNull (pointer : String) :
    (Condition.isNull pointer).words = [pointer, "NULL"] := rfl

@[simp] theorem words_isEmptyText (pointer : String) :
    (Condition.isEmptyText pointer).words = [pointer] := rfl

@[simp] theorem words_atLeast (left right : String) :
    (Condition.atLeast left right).words = [left, right] := rfl

@[simp] theorem words_sameText (left right : Operand) :
    (Condition.sameText left right).words = "strcmp" :: left.words ++ right.words := by
  simp [Condition.words, Condition.pieces, Operand.words]

@[simp] theorem words_either (left right : Condition) :
    (Condition.either left right).words = left.words ++ right.words := by
  simp [Condition.words, Condition.pieces]

@[simp] theorem words_callPieces (function : String) (arguments : List Operand) :
    wordsOf (callPieces function arguments) = function :: arguments.flatMap Operand.words := by
  have each : (fun argument : Operand => wordsOf argument.pieces) = Operand.words := rfl
  simp [callPieces, List.flatMap_map, each]

@[simp] theorem words_define (result : Variable) (function : String) (arguments : List Operand) :
    (Statement.define result function arguments).words =
      result.words ++ function :: arguments.flatMap Operand.words := by
  simp [Statement.words, Statement.pieces, Variable.words]

@[simp] theorem words_defineArray (type name size : String) (values : List Weight) :
    (Statement.defineArray type name size values).words = [type, name, size] := by
  simp [Statement.words, Statement.pieces, List.flatMap_map]

@[simp] theorem words_call (function : String) (arguments : List Operand) :
    (Statement.call function arguments).words = function :: arguments.flatMap Operand.words := by
  simp [Statement.words, Statement.pieces]

@[simp] theorem words_discard (name : String) : (Statement.discard name).words = ["void", name] :=
  rfl

@[simp] theorem words_returns (value : Operand) :
    (Statement.returns value).words = "return" :: value.words := by
  simp [Statement.words, Statement.pieces, Operand.words]

@[simp] theorem words_returnsIf (condition : Condition) (value : Operand) :
    (Statement.returnsIf condition value).words =
      "if" :: condition.words ++ "return" :: value.words := by
  simp [Statement.words, Statement.pieces, Operand.words, Condition.words]

@[simp] theorem words_countUp (type index bound : String) (body : Statement) :
    (Statement.countUp type index bound body).words =
      ["for", type, index, index, bound, index] ++ body.words := by
  simp [Statement.words, Statement.pieces]

theorem words_statements (statements : List Statement) :
    wordsOf (statements.flatMap Statement.pieces).flatten =
      statements.flatMap Statement.words := by
  rw [← words_tokensOf, tokens_statements, List.filterMap_flatMap]
  simp only [Statement.tokens, words_tokensOf]
  rfl

end Statements

section Declarations

theorem words_head (head : Prototype) : head.words =
    wordsOf (head.result.pieces head.name) ++ head.parameter.elim ["void"] Variable.words := by
  cases parameter : head.parameter <;>
    simp [Prototype.words, Prototype.pieces, Variable.words, parameter]

@[simp] theorem words_comment (text : String) : (Declaration.comment text).words = [] := rfl

@[simp] theorem words_pragmaOnce : Declaration.pragmaOnce.words = [] := rfl

@[simp] theorem words_includeSystem (header : String) :
    (Declaration.includeSystem header).words = [] := rfl

@[simp] theorem words_includeQuoted (header : String) :
    (Declaration.includeQuoted header).words = [] := rfl

@[simp] theorem words_enumeration (tag count : String) (members : List String) :
    (Declaration.enumeration tag members count).words = "enum" :: tag :: members ++ [count] := by
  have lines : wordsOf (members.map fun member => [.word member, .mark ","]).flatten = members := by
    induction members with
    | nil => rfl
    | cons member members ih => simpa using ih
  simp [Declaration.words, Declaration.pieces, lines]

@[simp] theorem words_nameArray (array size : String) (names : List String) :
    (Declaration.nameArray array size names).words =
      ["static", "const", "char", "const", array, size] := by
  have lines : wordsOf (names.map fun name => [.literal name, .mark ","]).flatten = [] := by
    induction names with
    | nil => rfl
    | cons name names ih => simpa using ih
  simp [Declaration.words, Declaration.pieces, lines]

@[simp] theorem words_prototype (head : Prototype) :
    (Declaration.prototype head).words = head.words := by
  simp [Declaration.words, Declaration.pieces, Prototype.words]

@[simp] theorem words_function (definition : Definition) :
    (Declaration.function definition).words =
      definition.head.words ++ definition.body.flatten.flatMap Statement.words := by
  simp [Declaration.words, Declaration.pieces, Prototype.words, words_statements]

end Declarations

/-- The words of a unit, as its declarations have them. -/
def unitWords (unit : TranslationUnit) : List String := unit.flatten.flatMap Declaration.words

def unitItems (unit : TranslationUnit) : List Item := unit.flatten.filterMap Declaration.item?

theorem words_unitText {unit : TranslationUnit} {paragraph : List Declaration}
    {declaration : Declaration} {whole : TranslationUnit}
    (parts : whole = unit ++ [paragraph ++ [declaration]])
    (readable : ∀ paragraph ∈ whole, ∀ declaration ∈ paragraph, declaration.Readable) :
    words (unitText whole) = unitWords whole := by
  rw [words, tokens_unitText parts readable, List.filterMap_flatMap]
  simp only [Declaration.tokens, words_tokensOf]
  rfl

namespace Item

def constants : Item → List String
  | enumeration _ constants => constants
  | _ => []

def functions : Item → List String
  | prototype head | function head _ => [head.name]
  | _ => []

def arrays : Item → List String
  | nameArray array _ _ => [array]
  | _ => []

end Item

/-- The names that an interface and its implementation bring in, tags apart: constants and functions, and the
arrays of the implementation. -/
def declaredNames (interface implementation : List Item) : List String :=
  interface.flatMap Item.constants ++ interface.flatMap Item.functions ++
    implementation.flatMap Item.arrays

end PetriCode.C
