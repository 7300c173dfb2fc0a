import PetriCode.C.Printer
import PetriCode.Proofs.Net.Faults
import PetriCode.Proofs.Pnml.Loading

/-! Numbers in texts. The weight of an arc and the marking of a place are read by one grammar: white space
around the text aside, at most one plus sign and then digits, as long as the number fits in 32 bits. What
is no such number is told as it stands for a weight, and without the white space for a marking. A number
that is written in a source is read again by both readers. -/
namespace PetriCode
open Xml

namespace Text.Numeral

/-- No number that fits in 32 bits is denoted. -/
def Numberless (core : List Char) : Prop := ∀ value ≤ 4294967295, ¬ Denotes core value

theorem read?_eq_none_iff {core : List Char} : read? core = none ↔ Numberless core := by
  have numbers := exists_toNat_iff (p := Denotes core)
  constructor
  · intro unread value small denotes
    obtain ⟨number, denoted⟩ := numbers.2 ⟨value, denotes, small⟩
    rw [read?_eq_some_iff.2 denoted] at unread
    cases unread
  · intro numberless
    cases read : read? core with
    | none => rfl
    | some number =>
      obtain ⟨value, denotes, small⟩ := numbers.1 ⟨number, read?_eq_some_iff.1 read⟩
      exact absurd denotes (numberless value small)

theorem Denotes.trimmed {core : List Char} {value : Nat} (denotes : Denotes core value) :
    Trimmed core core :=
  ⟨⟨[], [], by simp⟩, fun c first => denotes.solid c (List.mem_of_head? first),
    fun c last => denotes.solid c (List.mem_of_getLast? last)⟩

end Text.Numeral

open Text.Numeral (Denotes Numberless)

/-- How a text is read as a weight that has some core without the white space around it. -/
structure WeighsAs (text : String) (core : List Char) : Prop where
  accepted : ∀ value, (∃ weight, weightOf text = .ok weight ∧ weight.toNat = value) ↔
    Denotes core value ∧ 1 ≤ value ∧ value ≤ 4294967295
  refused : ∀ fault, weightOf text = .error fault ↔
    fault = .zeroWeight ∧ Denotes core 0 ∨ fault = .inscription text ∧ Numberless core

theorem weighsAs_of_trimmed {text : String} {core : List Char}
    (trimmed : Text.Trimmed text.toList core) : WeighsAs text core := by
  have inscribes (value : Nat) : Text.Inscribes text value ↔ Denotes core value := by
    rw [Text.inscribes_iff, Text.trimmed_iff.1 trimmed]
  constructor
  · intro value
    have numbers := Text.exists_toNat_iff
      (p := fun number => (Denotes core number ∧ 0 < number) ∧ number = value)
    simp only [weightOf_eq_ok_iff, inscribes, numbers]
    constructor
    · rintro ⟨_, ⟨⟨denotes, positive⟩, rfl⟩, small⟩
      exact ⟨denotes, positive, small⟩
    · rintro ⟨denotes, positive, small⟩
      exact ⟨value, ⟨⟨denotes, positive⟩, rfl⟩, small⟩
  · intro fault
    simp only [weightOf_eq_error_iff, inscribes, Numberless]

namespace Pnml

/-- A place element with an id whose initial marking holds a text. -/
structure IsMarked (node : Xml.Node) (id text : String) : Prop where
  named : node.isNamed "place"
  id : node.Holds "id" id
  marking : ∃ holder inner, node.FirstChild "initialMarking" holder ∧
    holder.FirstChild "text" inner ∧ inner.Begins text

/-- The first net of a document has an element, and everything that stands before it can be loaded. -/
def Reaches (root node : Xml.Node) : Prop :=
  ∃ net before behind loaded, root.elements.find? (·.isNamed "net") = some net ∧
    Node.elementsOf net.children = before ++ node :: behind ∧
    before.foldlM loadElement .empty = .ok loaded

/-- How a place is read whose marking has some core without the white space around it, by itself and in any
document. -/
structure MarksAs (node : Xml.Node) (id : String) (core : List Char) : Prop where
  accepted : ∀ value,
    (∃ place, placeOf node = .ok place ∧ place.id = id ∧ place.marking.toNat = value) ↔
      Denotes core value ∧ value ≤ 4294967295
  refused : ∀ fault, placeOf node = .error fault ↔
    fault = .invalidMarking id (String.ofList core) ∧ Numberless core
  reported : ∀ root, Reaches root node →
    (load root = .error (.invalidMarking id (String.ofList core)) ↔ Numberless core)
  loaded : ∀ root net, Reaches root node → load root = .ok net →
    ∃ place ∈ net.places.entries, place.id = id ∧ Denotes core place.marking.toNat

section Faults
variable {node : Xml.Node} {fault : LoadError}

theorem placeOf_eq_error_iff : placeOf node = .error fault ↔
    (fault = .missingAttribute "place" "id" ∧ ∀ id, ¬ node.Holds "id" id) ∨
      ∃ id text, node.Holds "id" id ∧ Annotates node "initialMarking" text ∧
        Numberless text.toList ∧ fault = .invalidMarking id text := by
  unfold placeOf
  simp only [bind_eq_error_iff, requiredAttribute_eq_error_iff, requiredAttribute_eq_ok_iff]
  refine or_congr Iff.rfl (exists_congr fun id => ?_)
  simp only [← annotation?_eq_some_iff, ← Text.Numeral.read?_eq_none_iff]
  cases annotation? node "initialMarking" with
  | none => simp [pure, Except.pure]
  | some text =>
    cases read : Text.Numeral.read? text.toList with
    | none => simp [read, eq_comm]
    | some marking => simp [read, pure, Except.pure]

end Faults

section Marked
variable {node : Xml.Node} {id text : String} {core : List Char}

theorem IsMarked.annotates_iff (marked : IsMarked node id text)
    (trimmed : Text.Trimmed text.toList core) (inhabited : core ≠ []) {other : String} :
    Annotates node "initialMarking" other ↔ other = String.ofList core := by
  obtain ⟨holder, inner, outside, inside, begins⟩ := marked.marking
  have annotated : Annotates node "initialMarking" (String.ofList core) := by
    refine ⟨holder, inner, text, outside, inside, begins, by simpa using trimmed, ?_⟩
    simpa [← String.toList_inj] using inhabited
  rw [← annotation?_eq_some_iff, annotation?_eq_some_iff.2 annotated, Option.some.injEq, eq_comm]

theorem IsMarked.holds_iff (marked : IsMarked node id text) {other : String} :
    node.Holds "id" other ↔ other = id := by
  rw [← Node.attribute?_eq_some_iff, Node.attribute?_eq_some_iff.2 marked.id, Option.some.injEq, eq_comm]

theorem IsMarked.declares_iff (marked : IsMarked node id text)
    (trimmed : Text.Trimmed text.toList core) (inhabited : core ≠ []) {place : Place} :
    DeclaresPlace node place ↔
      place.id = id ∧ AnnotatesOr node "name" id place.label ∧ Denotes core place.marking.toNat := by
  have annotates {other : String} : Annotates node "initialMarking" other ↔ other = String.ofList core :=
    marked.annotates_iff trimmed inhabited
  constructor
  · rintro ⟨holds, label, marking⟩
    obtain rfl := marked.holds_iff.1 holds
    obtain ⟨other, annotated, denotes⟩ | ⟨absent, _⟩ := marking
    · rw [annotates.1 annotated, String.toList_ofList] at denotes
      exact ⟨rfl, label, denotes⟩
    · exact absurd (annotates.2 rfl) (absent _)
  · rintro ⟨rfl, label, denotes⟩
    exact ⟨marked.id, label, .inl ⟨_, annotates.2 rfl, by simpa using denotes⟩⟩

theorem IsMarked.placeOf_eq_error_iff (marked : IsMarked node id text)
    (trimmed : Text.Trimmed text.toList core) (inhabited : core ≠ []) {fault : LoadError} :
    placeOf node = .error fault ↔
      fault = .invalidMarking id (String.ofList core) ∧ Numberless core := by
  simp only [Pnml.placeOf_eq_error_iff, marked.holds_iff, marked.annotates_iff trimmed inhabited]
  simp [and_comm]

theorem load_of_find? {root net : Xml.Node}
    (found : root.elements.find? (·.isNamed "net") = some net) :
    load root = (Node.elementsOf net.children).foldlM loadElement .empty := by
  rw [load, found]

theorem IsMarked.marksAs (marked : IsMarked node id text) (trimmed : Text.Trimmed text.toList core)
    (inhabited : core ≠ []) : MarksAs node id core where
  accepted := by
    intro value
    have numbers := Text.exists_toNat_iff (p := fun number => Denotes core number ∧ number = value)
    simp only [placeOf_eq_ok_iff, marked.declares_iff trimmed inhabited]
    constructor
    · rintro ⟨place, ⟨_, _, denotes⟩, _, rfl⟩
      exact ⟨denotes, Nat.le_of_lt_succ place.marking.toNat_lt_size⟩
    · rintro ⟨denotes, small⟩
      obtain ⟨marking, denoted, same⟩ := numbers.2 ⟨value, ⟨denotes, rfl⟩, small⟩
      obtain ⟨label, labelled⟩ := exists_annotatesOr node "name" id
      exact ⟨⟨id, label, marking⟩, ⟨rfl, labelled, denoted⟩, rfl, same⟩
  refused := fun _ => marked.placeOf_eq_error_iff trimmed inhabited
  reported := by
    rintro root ⟨net, before, behind, loaded, found, elements, reached⟩
    rw [load_of_find? found]
    constructor
    · intro failed
      obtain _ | unread := ElementFault.of_loadElements failed
      simpa using Text.Numeral.read?_eq_none_iff.1 unread
    · intro numberless
      have failed := (marked.placeOf_eq_error_iff trimmed inhabited).2 ⟨rfl, numberless⟩
      rw [elements, List.foldlM_append, reached]
      -- The element is the first one that cannot be loaded, so nothing behind it matters.
      refine bind_eq_error_iff.2 (.inr ⟨loaded, rfl, ?_⟩)
      rw [List.foldlM_cons]
      refine bind_eq_error_iff.2 (.inl ?_)
      rw [loadElement, editOf_of_place marked.named, failed]
      rfl
  loaded := by
    rintro root result ⟨net, before, behind, _, found, elements, _⟩ succeeds
    rw [load_of_find? found] at succeeds
    obtain ⟨contents, ⟨places, _, _⟩, same⟩ := loadElements_eq_ok_iff.1 succeeds
    have listed : (Listing.of (Node.elementsOf net.children)).places =
        before.filter (Node.isNamed "place") ++ node :: behind.filter (Node.isNamed "place") := by
      rw [elements, Listing.of, List.filter_append, List.filter_cons_of_pos marked.named]
    rw [listed, forall₂_append_iff] at places
    obtain ⟨front, back, _, standing, whole⟩ := places
    obtain ⟨place, others, declares, _, rfl⟩ := List.forall₂_cons_left_iff.1 standing
    obtain ⟨named, _, denotes⟩ := (marked.declares_iff trimmed inhabited).1 declares
    have kept : result.places.entries = contents.places := congrArg Contents.places same
    refine ⟨place, ?_, named, denotes⟩
    rw [kept, whole]
    simp

end Marked

/-- A text that is read as one number, as a weight unless it is zero and as a marking. -/
structure ReadsBack (number : Weight) (text : String) : Prop where
  weight : weightOf text = .ok number ↔ 0 < number.toNat
  marking : ∀ node id, IsMarked node id text →
    ∃ place, placeOf node = .ok place ∧ place.id = id ∧ place.marking = number

theorem readsBack_write (number : Weight) : ReadsBack number (Text.Numeral.write number) := by
  have denotes := Text.Numeral.denotes_write number
  have trimmed := denotes.trimmed
  constructor
  · rw [weightOf_eq_ok_iff, Text.inscribes_iff, ← Text.trimmed_iff.1 trimmed]
    exact and_iff_right denotes
  · intro node id marked
    obtain ⟨label, labelled⟩ := exists_annotatesOr node "name" id
    have declares : DeclaresPlace node ⟨id, label, number⟩ :=
      (marked.declares_iff trimmed denotes.inhabited).2 ⟨rfl, labelled, denotes⟩
    exact ⟨_, placeOf_eq_ok_iff.2 declares, rfl, rfl⟩

end Pnml

open Pnml

/-- Every text is read as a weight, and where it marks a place as a marking, by what is left of it without the
white space around it, and every number is read back from the text with which it is printed. -/
theorem numbers_read :
    (∀ text : String, ∃ core, Text.Trimmed text.toList core ∧ WeighsAs text core ∧
      ∀ node id, IsMarked node id text → core ≠ [] → MarksAs node id core) ∧
    (∀ number, ReadsBack number (C.Operand.number number).text) ∧
    ∀ numbers, ∃ texts, C.initializer numbers = "\x7b" ++ ", ".intercalate texts ++ "\x7d" ∧
      List.Forall₂ ReadsBack numbers texts := by
  refine ⟨?_, readsBack_write, ?_⟩
  · intro text
    have trimmed := Text.trimmed_iff.2 (rfl : Text.trim text.toList = _)
    exact ⟨_, trimmed, weighsAs_of_trimmed trimmed, fun _ _ marked => marked.marksAs trimmed⟩
  · intro numbers
    refine ⟨numbers.map Text.Numeral.write, rfl, ?_⟩
    rw [List.forall₂_map_right_iff, List.forall₂_same]
    exact fun number _ => readsBack_write number

/-- A place whose marking has white space around it, a sign and leading zeros. -/
def paddedPlace : Xml.Node :=
  .element ⟨none, "place"⟩ [⟨⟨none, "id"⟩, "p0"⟩] [.element ⟨none, "initialMarking"⟩ []
    [.element ⟨none, "text"⟩ [] [.text "\u00a0+007\n"]]]

theorem isMarked_paddedPlace : IsMarked paddedPlace "p0" "\u00a0+007\n" where
  named := rfl
  id := Node.attribute?_eq_some_iff.1 rfl
  marking := ⟨_, _, Node.child?_eq_some_iff.1 rfl, Node.child?_eq_some_iff.1 rfl, [], rfl⟩

/-- A net with that place alone. -/
def paddedNet : Xml.Node := .element ⟨none, "net"⟩ [] [paddedPlace]

theorem numbers_read_padded : (∃ weight, weightOf "\u00a0+007\n" = .ok weight ∧ weight.toNat = 7) ∧
    (∃ place, placeOf paddedPlace = .ok place ∧ place.id = "p0" ∧ place.marking.toNat = 7) ∧
    ∃ net, load paddedNet = .ok net ∧
      ∃ place ∈ net.places.entries, place.id = "p0" ∧ place.marking.toNat = 7 := by
  obtain ⟨core, trimmed, weighs, marks⟩ := numbers_read.1 "\u00a0+007\n"
  obtain rfl : core = "+007".toList := Text.trimmed_iff.1 trimmed
  have digits : "007".toList.all Char.isDigit := rfl
  have denotes : Denotes "+007".toList 7 := .signed (by decide) (List.all_eq_true.1 digits)
  have marked := marks _ _ isMarked_paddedPlace (by decide)
  have reached : Reaches paddedNet paddedPlace := ⟨paddedNet, [], _, .empty, rfl, rfl, rfl⟩
  obtain ⟨net, succeeds⟩ : ∃ net, load paddedNet = .ok net := ⟨_, rfl⟩
  obtain ⟨place, member, named, again⟩ := marked.loaded paddedNet net reached succeeds
  exact ⟨(weighs.accepted 7).2 ⟨denotes, by decide, by decide⟩,
    (marked.accepted 7).2 ⟨denotes, by decide⟩, net, succeeds, place, member, named, again.unique denotes⟩

end PetriCode
