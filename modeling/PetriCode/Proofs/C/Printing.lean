import Mathlib.Data.List.Forall2
import PetriCode.C.Printer
import PetriCode.Proofs.C.Spelling
import PetriCode.Proofs.C.Syntax

/-! The pieces that the printer writes. They are separate as long as what is meant as a name is one: an
identifier that is no keyword. -/
namespace PetriCode.C

def IsName (text : String) : Prop := isIdentifier text.toList ∧ text ∉ keywords

def IsTypeName (text : String) : Prop :=
  isIdentifier text.toList ∧ (text = "char" ∨ text ∉ keywords)

instance (text : String) : Decidable (IsName text) := inferInstanceAs (Decidable (_ ∧ _))

theorem IsName.isTypeName {text : String} (isName : IsName text) : IsTypeName text :=
  ⟨isName.1, .inr isName.2⟩

theorem IsName.not_mem {name : String} (isName : IsName name) {c : Char}
    (outside : isIdentifierPart c = false) : c ∉ name.toList := by
  intro member
  rw [parts_of_identifier isName.1 c member] at outside
  cases outside

def TypeName.Readable : TypeName → Prop
  | plain name | pointer name | constPointer name => IsTypeName name

structure Variable.Readable (declared : Variable) : Prop where
  type : declared.type.Readable
  name : IsName declared.name

structure Prototype.Readable (head : Prototype) : Prop where
  result : head.result.Readable
  name : IsName head.name
  parameter : ∀ parameter ∈ head.parameter, parameter.Readable

def Operand.Readable : Operand → Prop
  | name identifier => IsName identifier
  | number _ => True
  | element array index => IsName array ∧ IsName index

def Condition.IsComparison : Condition → Prop
  | either _ _ => False
  | _ => True

def Condition.Readable : Condition → Prop
  | isNull pointer | isEmptyText pointer => IsName pointer
  | atLeast left right => IsName left ∧ IsName right
  | sameText left right => left.Readable ∧ right.Readable
  | either left right => (left.IsComparison ∧ left.Readable) ∧ right.IsComparison ∧ right.Readable

def Statement.Readable : Statement → Prop
  | define result function arguments =>
    result.Readable ∧ IsName function ∧ ∀ argument ∈ arguments, argument.Readable
  | defineArray type name size values => IsTypeName type ∧ IsName name ∧ IsName size ∧ values ≠ []
  | call function arguments => IsName function ∧ ∀ argument ∈ arguments, argument.Readable
  | discard name => IsName name
  | returns value => value.Readable
  | returnsIf condition value => condition.Readable ∧ value.Readable
  | countUp type index bound body => IsTypeName type ∧ IsName index ∧ IsName bound ∧ body.Readable

def Declaration.Readable : Declaration → Prop
  | comment text => '/' ∉ text.toList ∧ Plain text.toList
  | pragmaOnce => True
  | includeSystem header | includeQuoted header => '\n' ∉ header.toList ∧ Plain header.toList
  | enumeration tag members count =>
    IsName tag ∧ IsName count ∧ ∀ member ∈ members, IsName member
  | nameArray array size names => IsName array ∧ IsName size ∧ names ≠ []
  | prototype head => head.Readable
  | function definition => definition.head.Readable ∧ ∀ group ∈ definition.body,
      ∀ statement ∈ group, statement.Readable

section Pieces

def TypeName.pieces (name : String) : TypeName → List Piece
  | plain type => [.word type, .space, .word name]
  | pointer type => [.word type, .space, .mark "*", .word name]
  | constPointer type => [.word "const", .space, .word type, .space, .mark "*", .word name]

def Variable.pieces (declared : Variable) : List Piece := declared.type.pieces declared.name

def Prototype.pieces (head : Prototype) : List Piece :=
  head.result.pieces head.name ++ [.mark "("] ++
    head.parameter.elim [.word "void"] Variable.pieces ++ [.mark ")"]

def Operand.pieces : Operand → List Piece
  | name identifier => [.word identifier]
  | number value => [.number value]
  | element array index => [.word array, .mark "[", .word index, .mark "]"]

def Condition.pieces : Condition → List Piece
  | isNull pointer => [.word pointer, .space, .mark "==", .space, .word "NULL"]
  | isEmptyText pointer =>
    [.word pointer, .mark "[", .number 0, .mark "]", .space, .mark "==", .space, .nul]
  | atLeast left right => [.word left, .space, .mark ">=", .space, .word right]
  | sameText left right =>
    [.word "strcmp", .mark "("] ++ left.pieces ++ [.mark ",", .space] ++ right.pieces ++
      [.mark ")", .space, .mark "==", .space, .number 0]
  | either left right => left.pieces ++ [.space, .mark "||", .space] ++ right.pieces

def commas (items : List (List Piece)) : List Piece := [Piece.mark ",", .space].intercalate items

def callPieces (function : String) (arguments : List Operand) : List Piece :=
  [.word function, .mark "("] ++ commas (arguments.map Operand.pieces) ++ [.mark ")"]

def Statement.pieces : Statement → List (List Piece)
  | define result function arguments =>
    [result.pieces ++ [.space, .mark "=", .space] ++ callPieces function arguments ++ [.mark ";"]]
  | defineArray type name size values =>
    [[.word type, .space, .word name, .mark "[", .word size, .mark "]", .space, .mark "=", .space,
      .mark "\x7b"] ++ commas (values.map fun value => [.number value]) ++
      [.mark "\x7d", .mark ";"]]
  | call function arguments => [callPieces function arguments ++ [.mark ";"]]
  | discard name => [[.mark "(", .word "void", .mark ")", .word name, .mark ";"]]
  | returns value => [[.word "return", .space] ++ value.pieces ++ [.mark ";"]]
  | returnsIf condition value =>
    [[.word "if", .space, .mark "("] ++ condition.pieces ++
      [.mark ")", .space, .word "return", .space] ++ value.pieces ++ [.mark ";"]]
  | countUp type index bound body =>
    [[.word "for", .space, .mark "(", .word type, .space, .word index, .space, .mark "=", .space,
      .number 0, .mark ";", .space, .word index, .space, .mark "<", .space, .word bound, .mark ";",
      .space, .word index, .mark "++", .mark ")", .space, .mark "\x7b"]] ++ body.pieces ++
      [[.mark "\x7d"]]

def Declaration.pieces : Declaration → List (List Piece)
  | comment text => [[.comment (" " ++ text ++ " ")]]
  | pragmaOnce => [[.directive "pragma once"]]
  | includeSystem header => [[.directive ("include <" ++ header ++ ">")]]
  | includeQuoted header => [[.directive ("include \"" ++ header ++ "\"")]]
  | enumeration tag members count =>
    [[.word "enum", .space, .word tag, .space, .mark "\x7b"]] ++
      members.map (fun member => [.word member, .mark ","]) ++
      [[.word count], [.mark "\x7d", .mark ";"]]
  | nameArray array size names =>
    [[.word "static", .space, .word "const", .space, .word "char", .space, .mark "*",
      .word "const", .space, .word array, .mark "[", .word size, .mark "]", .space, .mark "=",
      .space, .mark "\x7b"]] ++
      names.map (fun name => [.literal name, .mark ","]) ++ [[.mark "\x7d", .mark ";"]]
  | prototype head => [head.pieces ++ [.mark ";"]]
  | function definition =>
    [definition.head.pieces, [.mark "\x7b"]] ++
      definition.body.flatten.flatMap Statement.pieces ++ [[.mark "\x7d"]]

end Pieces

section Texts

theorem spell_typePieces (type : TypeName) (name : String) :
    spell (type.pieces name) = (type.declare name).toList := by
  cases type <;> simp [TypeName.pieces, TypeName.declare, Piece.text]

theorem spell_variable (declared : Variable) : spell declared.pieces = declared.text.toList :=
  spell_typePieces _ _

theorem spell_prototype (head : Prototype) : spell head.pieces = head.text.toList := by
  cases parameter : head.parameter <;>
    simp [Prototype.pieces, Prototype.text, Piece.text, parameter, spell_typePieces, spell_variable]

theorem spell_operand (operand : Operand) : spell operand.pieces = operand.text.toList := by
  cases operand <;> simp [Operand.pieces, Operand.text, Piece.text]

theorem write_zero : Text.Numeral.write 0 = "0" := by decide

theorem spell_condition (condition : Condition) :
    spell condition.pieces = condition.text.toList := by
  induction condition with
  | sameText left right =>
    simp [Condition.pieces, Condition.text, Piece.text, spell_operand, write_zero]
  | either left right first second => simp [Condition.pieces, Condition.text, Piece.text, first, second]
  | _ => simp [Condition.pieces, Condition.text, Piece.text, write_zero]

theorem spell_commas (items : List (List Piece)) :
    spell (commas items) = [',', ' '].intercalate (items.map spell) := by
  unfold commas
  induction items with
  | nil => rfl
  | cons item items ih =>
    cases items with
    | nil => simp
    | cons next items => simp_all [Piece.text]

theorem spell_call (function : String) (arguments : List Operand) :
    spell (callPieces function arguments) = (callText function arguments).toList := by
  simp [callPieces, callText, Piece.text, spell_commas, Function.comp_def, spell_operand]

end Texts

section Separation

theorem endsMark_identifier {text : String} (identifier : isIdentifier text.toList)
    (rest : List Char) : EndsMark (text.toList ++ rest) := by
  intro c head
  cases letters : text.toList with
  | nil => simp [letters, isIdentifier] at identifier
  | cons first run =>
    simp only [letters, isIdentifier, Bool.and_eq_true] at identifier
    obtain rfl : first = c := by simpa [letters] using head
    rw [Bool.eq_false_iff]
    intro prolongs
    simp only [C.prolongs, List.mem_cons, List.not_mem_nil, or_false, decide_eq_true_eq] at prolongs
    rcases prolongs with rfl | rfl | rfl | rfl | rfl | rfl | rfl | rfl <;>
      exact absurd identifier.1 (by decide)

theorem separate_typePieces {type : TypeName} {name : String} (readable : type.Readable)
    (isName : IsName name) {rest : List Char} (ends : EndsRun rest) :
    Separate (type.pieces name) rest := by
  have apart := endsMark_identifier isName.1 rest
  have typeName := fun text (isType : IsTypeName text) => isType.1
  cases type <;>
    simp +decide [TypeName.pieces, Piece.Fits, Piece.text, endsRun_cons, isName.1, ends, apart,
      typeName _ readable]

theorem separate_variable {declared : Variable} (readable : declared.Readable) {rest : List Char}
    (ends : EndsRun rest) : Separate declared.pieces rest :=
  separate_typePieces readable.type readable.name ends

theorem separate_prototype {head : Prototype} (readable : head.Readable) (rest : List Char) :
    Separate head.pieces rest := by
  have result (after : List Char) : Separate (head.result.pieces head.name) ('(' :: after) :=
    separate_typePieces readable.result readable.name (endsRun_cons.2 (by decide))
  have close : EndsRun (')' :: rest) := endsRun_cons.2 (by decide)
  cases parameter : head.parameter with
  | none => simp +decide [Prototype.pieces, Piece.Fits, Piece.text, parameter, result, close]
  | some declared =>
    have separate := separate_variable (readable.parameter declared parameter) close
    simp +decide [Prototype.pieces, Piece.Fits, Piece.text, parameter, result, separate]

theorem separate_operand {operand : Operand} (readable : operand.Readable) {rest : List Char}
    (ends : EndsRun rest) : Separate operand.pieces rest := by
  cases operand with
  | name identifier => simpa [Operand.pieces, Piece.Fits, ends] using readable.1
  | number value => simpa [Operand.pieces, Piece.Fits] using ends
  | element array index =>
    simp +decide [Operand.pieces, Piece.Fits, Piece.text, endsRun_cons, readable.1.1, readable.2.1]

theorem separate_comparison {condition : Condition} (readable : condition.Readable)
    (comparison : condition.IsComparison) {rest : List Char} (ends : EndsRun rest) :
    Separate condition.pieces rest := by
  cases condition with
  | isNull pointer =>
    have name := readable.1
    simp +decide [Condition.pieces, Piece.Fits, Piece.text, endsRun_cons, endsMark_cons, name, ends]
  | isEmptyText pointer =>
    have name := readable.1
    simp +decide [Condition.pieces, Piece.Fits, Piece.text, endsRun_cons, endsMark_cons, name]
  | atLeast left right =>
    simp +decide [Condition.pieces, Piece.Fits, Piece.text, endsRun_cons, endsMark_cons,
      readable.1.1, readable.2.1, ends]
  | sameText left right =>
    have first (after : List Char) : Separate left.pieces (',' :: after) :=
      separate_operand readable.1 (endsRun_cons.2 (by decide))
    have second (after : List Char) : Separate right.pieces (')' :: after) :=
      separate_operand readable.2 (endsRun_cons.2 (by decide))
    simp +decide [Condition.pieces, Piece.Fits, Piece.text, endsRun_cons, endsMark_cons, ends,
      first, second]
  | either left right => exact absurd comparison id

theorem separate_condition {condition : Condition} (readable : condition.Readable)
    {rest : List Char} (ends : EndsRun rest) : Separate condition.pieces rest := by
  cases condition with
  | either left right =>
    obtain ⟨⟨leftShape, first⟩, rightShape, second⟩ := readable
    have before (after : List Char) : Separate left.pieces (' ' :: after) :=
      separate_comparison first leftShape (endsRun_cons.2 (by decide))
    have after := separate_comparison second rightShape ends
    simp +decide [Condition.pieces, Piece.Fits, Piece.text, endsMark_cons, before, after]
  | _ => exact separate_comparison readable trivial ends

theorem separate_commas {items : List (List Piece)}
    (separate : ∀ item ∈ items, ∀ rest, EndsRun rest → Separate item rest) {rest : List Char}
    (ends : EndsRun rest) : Separate (commas items) rest := by
  induction items with
  | nil => simp [commas]
  | cons item items ih =>
    obtain ⟨first, others⟩ := List.forall_mem_cons.1 separate
    cases items with
    | nil => simpa [commas] using first rest ends
    | cons next items =>
      have tail := ih others
      have head (after : List Char) := first (',' :: after) (endsRun_cons.2 (by decide))
      simp only [commas] at tail ⊢
      simp +decide [Piece.Fits, Piece.text, head, tail]

theorem separate_call {function : String} {arguments : List Operand} (isName : IsName function)
    (readable : ∀ argument ∈ arguments, argument.Readable) (rest : List Char) :
    Separate (callPieces function arguments) rest := by
  have close (after : List Char) : EndsRun (')' :: after) := endsRun_cons.2 (by decide)
  have separate (after : List Char) : Separate (commas (arguments.map Operand.pieces))
      (')' :: after) := by
    apply separate_commas _ (close after)
    intro item member rest ends
    obtain ⟨argument, present, rfl⟩ := List.mem_map.1 member
    exact separate_operand (readable argument present) ends
  simp +decide [callPieces, Piece.Fits, Piece.text, endsRun_cons, isName.1, separate]

end Separation

end PetriCode.C
