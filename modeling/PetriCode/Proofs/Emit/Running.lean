import PetriCode.Emit.Lookup
import PetriCode.Proofs.C.Semantics
import PetriCode.Proofs.Naming.Tables
import PetriCode.Proofs.Text.Bytes

/-! Running the bodies of the lookups. A body answers as its table does wherever the count constant of the
table is the number of its names, the array holds their bytes, and neither is hidden by a variable. -/
namespace PetriCode
open C

/-- What C sees of a text: its bytes up to the first null byte. -/
def shown (text : String) : List UInt8 := (bytes text).takeWhile (· ≠ 0)

/-- All of a text is seen, unless it has a null character. -/
theorem shown_eq_bytes {text : String} (plain : '\x00' ∉ text.toList) : shown text = bytes text := by
  rw [shown, List.takeWhile_eq_self_iff]
  intro byte member
  simp only [ne_eq, decide_eq_true_eq]
  rintro rfl
  exact plain (zero_mem_bytes_iff.1 member)

/-- A null byte behind the bytes of a text ends what is seen of it, if none in it does. -/
theorem content?_shown (text : String) (rest : List UInt8) :
    content? (bytes text ++ 0 :: rest) = some (shown text) := by
  have cut : (bytes text ++ 0 :: rest).takeWhile (· ≠ 0) = shown text := by
    rw [shown, List.takeWhile_append]
    split_ifs with whole
    · rw [List.takeWhile_cons_of_neg (by simp), List.append_nil,
        List.Sublist.eq_of_length (List.takeWhile_sublist _) whole]
    · rfl
  rw [content?, if_pos (by simp), cut]

theorem content?_bytes {text : String} (plain : '\x00' ∉ text.toList) (rest : List UInt8) :
    content? (bytes text ++ 0 :: rest) = some (bytes text) := by
  rw [content?_shown, shown_eq_bytes plain]

/-- Only an array that begins with a null byte has no content. -/
theorem exists_cons_of_content? {array content : List UInt8} (ended : content? array = some content) :
    ∃ first rest, array = first :: rest ∧ (first = 0 ↔ content = []) := by
  unfold content? at ended
  cases array with
  | nil => simp at ended
  | cons first rest =>
    obtain ⟨_, same⟩ := Option.ite_none_right_eq_some.1 ended
    obtain rfl := Option.some.inj same
    refine ⟨first, rest, rfl, ?_⟩
    by_cases zero : first = 0
    · simp [zero]
    · simp [zero, List.takeWhile_cons_of_pos]

def locals : List String := ["place", "trans", "name", "i"]

/-- What a program has to know of a table. -/
structure C.Program.Knows (program : Program) (table : NameTable) : Prop where
  count : program.constant? table.count = some table.size
  array : table.names ≠ [] →
    program.array? table.array = some (table.count, table.names.map bytes)
  countFree : table.count ∉ "NULL" :: locals
  arrayFree : table.array ∉ locals

theorem lookup_eq_none {scope : Scope} {name : String} (free : name ∉ locals)
    (known : ∀ entry ∈ scope, entry.1 ∈ locals) : scope.lookup name = none := by
  rw [List.lookup_eq_none_iff]
  intro entry member
  rw [bne_iff_ne]
  intro same
  exact free (same ▸ known entry member)

theorem run?_returns (program : Program) (scope : Scope) (value : Operand) :
    program.run? scope (.returns value) = (program.operand? scope value).map some := rfl

theorem run?_returnsIf (program : Program) (scope : Scope) (condition : Condition)
    (value : Operand) :
    program.run? scope (.returnsIf condition value) =
      (program.holds? scope condition).bind fun holds =>
        if holds then (program.operand? scope value).map some else some none := rfl

theorem holds?_either (program : Program) (scope : Scope) (left right : Condition) :
    program.holds? scope (.either left right) = (program.holds? scope left).bind fun first =>
      if first then some true else program.holds? scope right := rfl

theorem operand?_null (program : Program) (scope : Scope) :
    program.operand? scope .null = some .null := rfl

section Bodies
variable {program : Program} {table : NameTable} (knows : program.Knows table)
include knows

theorem name?_count {scope : Scope} (known : ∀ entry ∈ scope, entry.1 ∈ locals) :
    program.name? scope table.count = some (.number table.size) := by
  have free := knows.countFree
  rw [List.mem_cons, not_or] at free
  simp [Program.name?, free.1, lookup_eq_none free.2 known, knows.count]

theorem element?_array {scope : Scope} (known : ∀ entry ∈ scope, entry.1 ∈ locals)
    {index : Nat} {name : String} (listed : table.names[index]? = some name) :
    program.element? scope table.array index = some (.text (bytes name ++ [0])) := by
  obtain ⟨bound, same⟩ := List.getElem?_eq_some_iff.1 listed
  have inhabited : table.names ≠ [] := by
    intro empty
    simp [empty] at bound
  simp [Program.element?, lookup_eq_none knows.arrayFree known, knows.array inhabited, knows.count,
    bound, same, NameTable.size]

def foundText (table : NameTable) (index : Nat) : Value :=
  (table.nameOf index).elim .null fun name => .text (bytes name ++ [0])

theorem runAll?_textBody {position : String} (known : position ∈ locals) (index : Nat) :
    program.runAll? [(position, .number index)] (Emit.textBody table position) =
      some (some (foundText table index)) := by
  have scope : ∀ entry ∈ [(position, Value.number index)], entry.1 ∈ locals := by simpa using known
  have notNull : position ≠ "NULL" := by
    rintro rfl
    exact absurd known (by decide)
  have holder : program.name? [(position, .number index)] position = some (.number index) := by
    simp [Program.name?, notNull]
  have count := name?_count knows scope
  unfold Emit.textBody
  split_ifs with empty
  · have missing : table.nameOf index = none := by simp [NameTable.nameOf, empty]
    simp [Program.runAll?, Program.run?, holder, operand?_null, foundText, missing]
  · have test : program.holds? [(position, .number index)] (.atLeast position table.count) =
        some (decide (table.size ≤ index)) := by
      simp [Program.holds?, Program.number?, holder, count]
    cases named : table.nameOf index with
    | none =>
      have beyond := NameTable.nameOf_eq_none_iff.1 named
      simp [Program.runAll?, Program.run?, test, beyond, operand?_null, foundText, named]
    | some name =>
      have inside : ¬ table.size ≤ index := by
        rw [← NameTable.nameOf_eq_none_iff, named]
        simp
      have element := element?_array knows scope named
      simp [Program.runAll?, Program.run?, test, inside, Program.operand?, Program.number?, holder,
        element, foundText, named]

end Bodies

/-- A loop that compares some texts with another one by one. Its rounds are those of the texts that are
left, and none of the texts before them is the other. -/
theorem countUp_texts {round : Nat → Option (Option Value)} {limit : Nat} {other : List UInt8}
    (before texts : List (List UInt8)) (fits : (before ++ texts).length < limit)
    (each : ∀ (index : Nat) text, (before ++ texts)[index]? = some text →
      round index = some (if text = other then some (.number index) else none)) :
    countUp round limit texts.length before.length = some
      (if other ∈ texts then some (.number (before.length + texts.idxOf other)) else none) := by
  induction texts generalizing before with
  | nil => rfl
  | cons text texts ih =>
    have first := each before.length text (by simp)
    by_cases same : text = other
    · simp [countUp, first, same]
    · have rest := ih (before ++ [text]) (by simpa using fits) (by simpa using each)
      have further : before.length + 1 < limit := by
        rw [List.length_append, List.length_cons] at fits
        omega
      have different : other ≠ text := fun equal => same equal.symm
      rw [List.length_append, List.length_singleton] at rest
      have shifted : before.length + 1 + texts.idxOf other =
          before.length + (texts.idxOf other + 1) := by omega
      simp [countUp, first, same, further, rest, different, List.idxOf_cons_ne _ same, shifted]

/-- Where the lookup in C finds a text: at the first name of which it sees that text. -/
def NameTable.foundAt (table : NameTable) (content : List UInt8) : Nat :=
  if content = [] then table.size else (table.names.map shown).idxOf content

theorem NameTable.foundAt_le (table : NameTable) (content : List UInt8) :
    table.foundAt content ≤ table.size := by
  unfold foundAt
  split_ifs
  · exact Nat.le_refl _
  · simpa [size] using List.idxOf_le_length (l := table.names.map shown) (a := content)

theorem idxOf_map_bytes (names : List String) (text : String) :
    (names.map bytes).idxOf (bytes text) = names.idxOf text := by
  induction names with
  | nil => rfl
  | cons name names ih => simp [List.idxOf_cons, ih, bytes_inj, Bool.beq_eq_decide_eq]

/-- Among names without null characters a text is found where the table has it. -/
theorem NameTable.foundAt_bytes {table : NameTable}
    (plain : ∀ name ∈ table.names, '\x00' ∉ name.toList) (text : String) :
    table.foundAt (bytes text) = table.indexOf (some text) := by
  have all : table.names.map shown = table.names.map bytes :=
    List.map_congr_left fun name member => shown_eq_bytes (plain name member)
  simp only [foundAt, indexOf, all, idxOf_map_bytes, bytes_eq_nil_iff]

section Bodies
variable {program : Program} {table : NameTable} (knows : program.Knows table)
variable {array content : List UInt8} (ended : content? array = some content)

include ended in
theorem holds?_unnamed (program : Program) :
    program.holds? [("name", .text array)] (.either (.isNull "name") (.isEmptyText "name")) =
      some (decide (content = [])) := by
  obtain ⟨first, rest, rfl, begins⟩ := exists_cons_of_content? ended
  have holder : program.name? [("name", .text (first :: rest))] "name" =
      some (.text (first :: rest)) := rfl
  have notNull : program.holds? [("name", .text (first :: rest))] (.isNull "name") =
      some false := rfl
  have emptyText : program.holds? [("name", .text (first :: rest))] (.isEmptyText "name") =
      some (decide (content = [])) := by
    simp [Program.holds?, holder, begins]
  rw [holds?_either, notNull, Option.bind_some, emptyText]
  rfl

include knows ended

theorem holds?_sameText {index : Nat} {name : String} (listed : table.names[index]? = some name) :
    program.holds? [("i", .number index), ("name", .text array)]
      (.sameText (.element table.array "i") (.name "name")) =
        some (decide (shown name = content)) := by
  have known : ∀ entry ∈ [("i", Value.number index), ("name", .text array)], entry.1 ∈ locals := by
    simp [locals]
  have element := element?_array knows known listed
  have holder : program.name? [("i", .number index), ("name", .text array)] "name" =
      some (.text array) := rfl
  have counter : program.number? [("i", .number index), ("name", .text array)] "i" =
      some index := rfl
  simp [Program.holds?, Program.operand?, counter, holder, element, sameText?, content?_shown, ended]

theorem run?_countUp (wide : table.size < 2 ^ program.width table.indexType) :
    program.run? [("name", .text array)] (.countUp table.indexType "i" table.count
      (.returnsIf (.sameText (.element table.array "i") (.name "name")) (.name "i"))) =
      some (if content ∈ table.names.map shown then
        some (.number ((table.names.map shown).idxOf content)) else none) := by
  have rounds : ∀ (index : Nat) text, ([] ++ table.names.map shown)[index]? = some text →
      program.run? [("i", .number index), ("name", .text array)]
        (.returnsIf (.sameText (.element table.array "i") (.name "name")) (.name "i")) =
        some (if text = content then some (.number index) else none) := by
    intro index text listed
    rw [List.nil_append, List.getElem?_map] at listed
    obtain ⟨name, named, rfl⟩ := Option.map_eq_some_iff.1 listed
    have comparison := holds?_sameText knows ended named
    have counter : program.name? [("i", .number index), ("name", .text array)] "i" =
        some (.number index) := rfl
    by_cases same : shown name = content
    · simp [Program.run?, comparison, same, Program.operand?, counter]
    · simp [Program.run?, comparison, same]
  have inner : ∀ entry ∈ [("i", Value.number 0), ("name", .text array)], entry.1 ∈ locals := by
    simp [locals]
  have limit : program.number? [("i", .number 0), ("name", .text array)] table.count =
      some (table.names.map shown).length := by
    simp [Program.number?, name?_count knows inner, NameTable.size]
  have loop := countUp_texts [] (table.names.map shown) (by simpa [NameTable.size] using wide) rounds
  rw [Program.run?, limit]
  simpa using loop

/-- The lookup from names to positions sees of a text what is before its first null byte. -/
theorem runAll?_positionBody_content (wide : table.size < 2 ^ program.width table.indexType) :
    program.runAll? [("name", .text array)] (Emit.positionBody table) =
      some (some (.number (table.foundAt content))) := by
  have known : ∀ entry ∈ [("name", Value.text array)], entry.1 ∈ locals := by simp [locals]
  have count := name?_count knows known
  have holder : program.name? [("name", .text array)] "name" = some (.text array) := rfl
  have test := holds?_unnamed ended program
  have loop := run?_countUp knows ended wide
  unfold Emit.positionBody
  split_ifs with empty
  -- Without names there is no array, and the body has no loop.
  · have missing : table.foundAt content = table.size := by
      simp [NameTable.foundAt, NameTable.size, empty]
    simp [Program.runAll?, Program.run?, Program.operand?, holder, count, missing]
  · by_cases unnamed : content = []
    · simp [Program.runAll?, Program.run?, Program.operand?, test, unnamed, count,
        NameTable.foundAt]
    · by_cases member : content ∈ table.names.map shown
      · simp [Program.runAll?, loop, member, run?_returnsIf, test, unnamed, NameTable.foundAt]
      · have missing : table.foundAt content = table.size := by
          rw [NameTable.foundAt, if_neg unnamed, List.idxOf_eq_length member, List.length_map,
            NameTable.size]
        simp [Program.runAll?, loop, member, run?_returnsIf, test, unnamed, missing, run?_returns,
          Program.operand?, count]

end Bodies

section Bodies
variable {program : Program} {table : NameTable} (knows : program.Knows table)
include knows

theorem runAll?_positionBody_null :
    program.runAll? [("name", .null)] (Emit.positionBody table) =
      some (some (.number (table.indexOf none))) := by
  have known : ∀ entry ∈ [("name", Value.null)], entry.1 ∈ locals := by simp [locals]
  have count := name?_count knows known
  have holder : program.name? [("name", .null)] "name" = some .null := rfl
  have test : program.holds? [("name", .null)] (.either (.isNull "name") (.isEmptyText "name")) =
      some true := rfl
  unfold Emit.positionBody
  split_ifs
  · simp [Program.runAll?, Program.run?, Program.operand?, holder, count, NameTable.indexOf]
  · simp [Program.runAll?, Program.run?, Program.operand?, test, count, NameTable.indexOf]

/-- The lookup from names to positions answers as the table does, whatever stands behind the text. -/
theorem runAll?_positionBody_text (wide : table.size < 2 ^ program.width table.indexType)
    (plain : ∀ name ∈ table.names, '\x00' ∉ name.toList) {text : String}
    (plainText : '\x00' ∉ text.toList) (beyond : List UInt8) :
    program.runAll? [("name", .text (bytes text ++ 0 :: beyond))] (Emit.positionBody table) =
      some (some (.number (table.indexOf (some text)))) := by
  rw [runAll?_positionBody_content knows (content?_bytes plainText beyond) wide,
    NameTable.foundAt_bytes plain]

end Bodies

end PetriCode
