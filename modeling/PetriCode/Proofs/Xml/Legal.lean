import Mathlib.Tactic.SplitIfs
import PetriCode.Proofs.Outcome
import PetriCode.Xml.Document

/-! The characters of what is read. A document may not hold every character, and neither may a reference
stand for one that it may not hold. So the values of attributes and the texts of every tree that is
read from a document are made of the characters that documents may hold, which the null character
is not. -/
namespace PetriCode.Xml

def Legal (text : List Char) : Prop := ∀ c ∈ text, isXmlChar c

theorem Legal.nul_not_mem {text : List Char} (legal : Legal text) : '\x00' ∉ text := by
  intro nul
  exact absurd (legal _ nul) (by decide)

namespace Scan
variable {α β : Type}

/-- Whatever a scanner reads has a property. -/
def Yields (scan : Scan α) (good : α → Prop) : Prop :=
  ∀ text value rest, scan text = some (value, rest) → good value

def LeavesEnd (scan : Scan α) : Prop :=
  ∀ text value rest, scan text = some (value, rest) → rest.val <:+ text

theorem bind_eq_some {first : Scan α} {next : α → Scan β} {text : List Char} {result : β}
    {rest : Rest text} (ran : (first >>= next) text = some (result, rest)) :
    ∃ value middle, first text = some (value, middle) ∧
      ∃ last, next value middle.val = some (result, last) ∧ last.val = rest.val := by
  change Scan.bind first next text = some (result, rest) at ran
  unfold Scan.bind at ran
  split at ran
  · cases ran
  · rename_i value middle one
    split at ran
    · cases ran
    · rename_i final last other
      cases ran
      exact ⟨value, middle, one, last, other, rfl⟩

theorem yields_bind {first : Scan α} {next : α → Scan β} {good : α → Prop} {well : β → Prop}
    (read : Yields first good) (each : ∀ value, good value → Yields (next value) well) :
    Yields (first >>= next) well := by
  intro text result rest ran
  obtain ⟨value, middle, one, last, other, _⟩ := bind_eq_some ran
  exact each value (read _ _ _ one) _ _ _ other

/-- A scanner of which nothing is asked, before one that yields something good. -/
theorem yields_after {first : Scan α} {next : α → Scan β} {good : β → Prop}
    (each : ∀ value, Yields (next value) good) : Yields (first >>= next) good := by
  have any : Yields first fun _ => True := fun _ _ _ _ => trivial
  exact yields_bind any fun value _ => each value

theorem yields_pure {value : α} {good : α → Prop} (holds : good value) :
    Yields (pure value) good := by
  intro text result rest ran
  change Scan.pure value text = some (result, rest) at ran
  cases ran
  exact holds

theorem yields_guard (condition : Bool) : Yields (guard condition) fun _ => condition := by
  intro text result rest ran
  cases condition with
  | true => rfl
  | false => cases ran

theorem yields_lift {value : Option α} {good : α → Prop} (holds : ∀ found, value = some found → good found) :
    Yields (lift value) good := by
  intro text result rest ran
  cases value with
  | none => cases ran
  | some found =>
    cases ran
    exact holds _ rfl

theorem yields_ite {condition : Prop} [Decidable condition] {first second : Scan α}
    {good : α → Prop} (one : Yields first good) (other : Yields second good) :
    Yields (if condition then first else second) good := by
  split
  · exact one
  · exact other

theorem leavesEnd_bind {first : Scan α} {next : α → Scan β} (front : LeavesEnd first)
    (each : ∀ value, LeavesEnd (next value)) : LeavesEnd (first >>= next) := by
  intro text result rest ran
  obtain ⟨value, middle, one, last, other, same⟩ := bind_eq_some ran
  rw [← same]
  exact (each value _ _ _ other).trans (front _ _ _ one)

theorem leavesEnd_pure (value : α) : LeavesEnd (pure value) := by
  intro text result rest ran
  change Scan.pure value text = some (result, rest) at ran
  cases ran
  exact List.suffix_rfl

theorem leavesEnd_guard (condition : Bool) : LeavesEnd (guard condition) := by
  intro text result rest ran
  cases condition with
  | true => exact leavesEnd_pure () text result rest ran
  | false => cases ran

theorem leavesEnd_lift (value : Option α) : LeavesEnd (lift value) := by
  intro text result rest ran
  cases value with
  | none => cases ran
  | some found => exact leavesEnd_pure found text result rest ran

theorem leavesEnd_beginsWith (front : List Char) : LeavesEnd (beginsWith front) := by
  intro text result rest ran
  cases ran
  exact List.suffix_rfl

theorem leavesEnd_exactly (front : List Char) : LeavesEnd (exactly front) := by
  intro text result rest ran
  unfold exactly at ran
  split at ran
  · cases ran
    exact List.drop_suffix _ _
  · cases ran

theorem leavesEnd_whileIn (p : Char → Bool) : LeavesEnd (whileIn p) := by
  intro text result rest ran
  cases ran
  exact List.dropWhile_suffix p

theorem leavesEnd_name : LeavesEnd name := by
  refine leavesEnd_bind (leavesEnd_whileIn _) fun text => ?_
  exact leavesEnd_bind (leavesEnd_guard _) fun _ => leavesEnd_pure text

theorem leavesEnd_ite {condition : Prop} [Decidable condition] {first second : Scan α}
    (one : LeavesEnd first) (other : LeavesEnd second) :
    LeavesEnd (if condition then first else second) := by
  split
  · exact one
  · exact other

theorem leavesEnd_reference : LeavesEnd reference := by
  have ends (c : Char) : LeavesEnd (do exactly [';']; pure c) :=
    leavesEnd_bind (leavesEnd_exactly _) fun _ => leavesEnd_pure c
  have numeric (mark : List Char) (digit : Char → Bool) (code : List Char → Option Char) :
      LeavesEnd (do
        exactly mark
        let digits ← whileIn digit
        guard !digits.isEmpty
        let c ← lift (code digits)
        exactly [';']
        pure c) := by
    refine leavesEnd_bind (leavesEnd_exactly _) fun _ => ?_
    refine leavesEnd_bind (leavesEnd_whileIn _) fun digits => ?_
    refine leavesEnd_bind (leavesEnd_guard _) fun _ => ?_
    exact leavesEnd_bind (leavesEnd_lift _) ends
  refine leavesEnd_bind (leavesEnd_beginsWith _) fun isHex => ?_
  refine leavesEnd_bind (leavesEnd_beginsWith _) fun isDecimal => ?_
  refine leavesEnd_ite (numeric _ _ _) (leavesEnd_ite (numeric _ _ _) ?_)
  refine leavesEnd_bind leavesEnd_name fun name => ?_
  exact leavesEnd_bind (leavesEnd_lift _) ends

end Scan

theorem isXmlChar_charOf {code : Nat} {c : Char} (found : charOf? code = some c) : isXmlChar c := by
  simp only [charOf?, Option.ite_none_right_eq_some, Option.some.injEq] at found
  obtain ⟨_, legal, rfl⟩ := found
  exact legal

theorem isXmlChar_namedChar {name : List Char} {c : Char} (found : namedChar? name = some c) :
    isXmlChar c := by
  have all : ∀ entry ∈ [("lt".toList, '<'), ("gt".toList, '>'), ("amp".toList, '&'),
      ("apos".toList, '\''), ("quot".toList, '"')], isXmlChar entry.2 := by decide
  obtain ⟨before, after, entries, _⟩ := List.lookup_eq_some_iff.1 found
  apply all (name, c)
  rw [entries]
  exact List.mem_append_right before List.mem_cons_self

theorem Scan.yields_reference : Scan.reference.Yields fun c => isXmlChar c := by
  have ends (c : Char) (legal : isXmlChar c) :
      Yields (do exactly [';']; pure c) fun c => isXmlChar c :=
    yields_after fun _ => yields_pure legal
  have numeric (code : Nat) : Yields (do let c ← lift (charOf? code); exactly [';']; pure c)
      fun c => isXmlChar c :=
    yields_bind (yields_lift fun _ => isXmlChar_charOf) ends
  unfold Scan.reference
  apply yields_after
  intro isHex
  apply yields_after
  intro isDecimal
  refine yields_ite ?_ (yields_ite ?_ ?_)
  · exact yields_after fun _ => yields_after fun _ => yields_after fun _ => numeric _
  · exact yields_after fun _ => yields_after fun _ => yields_after fun _ => numeric _
  · apply yields_after
    intro name
    exact yields_bind (yields_lift fun _ => isXmlChar_namedChar) ends

theorem legal_signsAfter (done : List Sign) (text : List Char) (front : Legal (done.map Sign.char))
    (back : Legal text) {signs : List Sign} (read : signsAfter done text = some signs) :
    Legal (signs.map Sign.char) := by
  fun_induction signsAfter done text with
  | case1 done =>
    cases read
    rw [List.map_reverse]
    intro c member
    exact front c (List.mem_reverse.1 member)
  | case2 => cases read
  | case3 done rest meant after reference ih =>
    apply ih _ _ read
    -- The referred character was tested by itself; what follows it is a part of the text.
    · exact List.forall_mem_cons.2 ⟨Scan.yields_reference _ _ _ reference, front⟩
    · intro c member
      exact back c (List.mem_cons_of_mem _ ((Scan.leavesEnd_reference _ _ _ reference).mem member))
  | case4 done c rest _ ih =>
    obtain ⟨first, others⟩ := List.forall_mem_cons.1 back
    exact ih (List.forall_mem_cons.2 ⟨first, front⟩) others read

theorem legal_lineEnds {raw : List Char} (legal : Legal raw) : Legal (lineEnds raw) := by
  intro c member
  obtain ⟨⟨before, written⟩, present, found⟩ := List.mem_filterMap.1 member
  dsimp only at found
  split_ifs at found with _ lineEnd
  · cases found
    decide
  · cases found
    exact legal _ (List.of_mem_zip present).2

theorem legal_valueSpaces {raw : List Char} (legal : Legal raw) : Legal (valueSpaces raw) := by
  intro c member
  obtain ⟨written, present, rfl⟩ := List.mem_map.1 member
  split_ifs
  · decide
  · exact legal_lineEnds legal _ present

theorem legal_attributeValue {raw : List Char} (legal : Legal raw) {value : String}
    (read : attributeValue? raw = some value) : Legal value.toList := by
  obtain ⟨signs, signed, rfl⟩ := Option.map_eq_some_iff.1 read
  rw [String.toList_ofList]
  exact legal_signsAfter [] _ (by simp [Legal]) (legal_valueSpaces legal) signed

theorem Sign.meant_cases {before behind : Option Sign} {sign : Sign} {c : Char}
    (meant : sign.meant before behind = some c) : c = '\r' ∨ c = '\n' ∨ c = sign.char := by
  unfold Sign.meant at meant
  split at meant
  · cases behind with
    | none => grind
    | some next => grind
  · cases meant
    exact .inr (.inr rfl)

theorem legal_dataChars {signs : List Sign} (legal : Legal (signs.map Sign.char)) :
    Legal (dataChars signs) := by
  intro c member
  obtain ⟨⟨sign, before, behind⟩, present, meant⟩ := List.mem_filterMap.1 member
  obtain rfl | rfl | rfl := Sign.meant_cases meant
  · decide
  · decide
  · exact legal _ (List.mem_map_of_mem (List.of_mem_zip present).1)

theorem legal_characterData {raw : List Char} (legal : Legal raw) {content : String}
    (read : characterData? raw = some content) : Legal content.toList := by
  unfold characterData? at read
  split_ifs at read
  obtain ⟨signs, signed, rfl⟩ := Option.map_eq_some_iff.1 read
  rw [String.toList_ofList]
  exact legal_dataChars (legal_signsAfter [] raw (by simp [Legal]) legal signed)

def Token.IsLegal : Token → Prop
  | .opening _ attributes _ => ∀ found ∈ attributes, Legal found.value.toList
  | .characters raw => Legal raw
  | .cdata raw => Legal raw
  | _ => True

namespace Scan

theorem yields_assignment : assignment.Yields fun found => Legal found.2 := by
  refine yields_after fun name => yields_after fun _ => yields_after fun _ => ?_
  refine yields_after fun _ => yields_after fun quote => yields_after fun _ => ?_
  refine yields_after fun raw => yields_after fun _ => ?_
  refine yields_bind (yields_guard _) fun _ legal => yields_pure ?_
  exact List.all_eq_true.1 legal

theorem yields_writtenAttribute :
    writtenAttribute.Yields fun found => Legal found.value.toList := by
  refine yields_bind yields_assignment fun found legal => ?_
  refine yields_bind (yields_lift fun _ => legal_attributeValue legal) fun value legal => ?_
  exact yields_pure legal

theorem legal_attributesAfter (done : List WrittenAttribute) (text : List Char)
    (front : ∀ found ∈ done, Legal found.value.toList) {all : List WrittenAttribute}
    {rest : Rest text} (read : attributesAfter done text = some (all, rest)) :
    ∀ found ∈ all, Legal found.value.toList := by
  -- As the scanner does, this goes on behind the attribute that was read, where less is left.
  have kept : ∀ found ∈ done.reverse, Legal found.value.toList := by simpa using front
  unfold attributesAfter at read
  split at read
  · cases read
  · split at read
    · split at read
      · cases read
      · rename_i others shorter _ _
        split at read
        · cases read
          exact kept
        · split at read
          · cases read
          · rename_i found after left written
            split at read
            · cases read
            · rename_i further
              cases read
              have legal := yields_writtenAttribute _ _ _ written
              have less := Nat.lt_succ_of_le (Nat.le_trans left shorter)
              exact legal_attributesAfter (found :: done) after
                (List.forall_mem_cons.2 ⟨legal, front⟩) further
    · cases read
      exact kept
termination_by text.length
decreasing_by
  subst_vars
  exact less

theorem yields_openingTag : openingTag.Yields Token.IsLegal := by
  have attributesLegal : attributes.Yields fun all => ∀ found ∈ all, Legal found.value.toList :=
    fun text _ _ read => legal_attributesAfter [] text (by simp) read
  refine yields_after fun name => yields_bind attributesLegal fun found legal => ?_
  refine yields_after fun _ => yields_after fun _ => ?_
  exact yields_pure legal

theorem yields_closingTag : closingTag.Yields Token.IsLegal := by
  refine yields_after fun _ => yields_after fun _ => yields_after fun _ => yields_after fun _ => ?_
  exact yields_pure trivial

theorem yields_comment : comment.Yields Token.IsLegal := by
  refine yields_after fun _ => yields_after fun _ => yields_after fun _ => yields_after fun _ => ?_
  exact yields_pure trivial

theorem yields_cdata : cdata.Yields Token.IsLegal := by
  refine yields_after fun _ => yields_after fun content => ?_
  refine yields_bind (yields_guard _) fun _ legal => yields_pure ?_
  exact List.all_eq_true.1 legal

theorem yields_instruction : instruction.Yields Token.IsLegal := by
  refine yields_after fun _ => yields_after fun _ => yields_after fun _ => yields_after fun _ => ?_
  refine yields_after fun _ => yields_after fun _ => yields_after fun _ => ?_
  exact yields_pure trivial

theorem yields_markup : markup.Yields Token.IsLegal := by
  refine yields_after fun _ => yields_ite yields_closingTag ?_
  refine yields_after fun _ => yields_ite yields_comment ?_
  refine yields_after fun _ => yields_ite yields_cdata ?_
  refine yields_after fun _ => yields_ite yields_instruction ?_
  exact yields_openingTag

end Scan

theorem legal_tokensAfter (done : List Token) (text : List Char)
    (front : ∀ token ∈ done, token.IsLegal) {tokens : List Token}
    (read : tokensAfter done text = some tokens) : ∀ token ∈ tokens, token.IsLegal := by
  fun_induction tokensAfter done text with
  | case1 done =>
    cases read
    simpa using front
  | case2 => cases read
  | case3 done rest token after marked ih =>
    exact ih (List.forall_mem_cons.2 ⟨Scan.yields_markup _ _ _ marked, front⟩) read
  | case4 done c rest _ raw legal ih =>
    exact ih (List.forall_mem_cons.2 ⟨List.all_eq_true.1 legal, front⟩) read
  | case5 => cases read

theorem legal_tokens {document : List Char} {tokens : List Token}
    (read : tokens? document = some tokens) : ∀ token ∈ tokens, token.IsLegal := by
  unfold tokens? at read
  dsimp only at read
  split at read
  · obtain ⟨_, _, further⟩ := Option.bind_eq_some_iff.1 read
    exact legal_tokensAfter [] _ (by simp) further
  · exact legal_tokensAfter [] _ (by simp) read

/-- The values of attributes and the texts of a tree may stand in a document. -/
inductive Node.IsLegal : Node → Prop
  | element (name : ExpandedName) {attributes : List Attribute} {children : List Node}
      (values : ∀ found ∈ attributes, Legal found.value.toList)
      (below : ∀ child ∈ children, child.IsLegal) : (Node.element name attributes children).IsLegal
  | text {content : String} (legal : Legal content.toList) : (Node.text content).IsLegal
  | comment (content : String) : (Node.comment content).IsLegal
  | instruction (target content : String) : (Node.instruction target content).IsLegal

structure Frame.IsLegal (frame : Frame) : Prop where
  values : ∀ found ∈ frame.attributes, Legal found.value.toList
  below : ∀ child ∈ frame.reversed, child.IsLegal

namespace Frame
variable {frame : Frame} (legal : frame.IsLegal)
include legal

theorem IsLegal.add {node : Node} (nodeLegal : node.IsLegal) : (frame.add node).IsLegal where
  values := legal.values
  below := List.forall_mem_cons.2 ⟨nodeLegal, legal.below⟩

theorem IsLegal.addText {content : String} (contentLegal : Legal content.toList) :
    (frame.addText content).IsLegal := by
  unfold Frame.addText
  split
  · rename_i before rest children
    have below := legal.below
    rw [children] at below
    obtain ⟨first, others⟩ := List.forall_mem_cons.1 below
    cases first with
    | text beforeLegal =>
      refine ⟨legal.values, List.forall_mem_cons.2 ⟨.text ?_, others⟩⟩
      rw [String.toList_append]
      exact List.forall_mem_append.2 ⟨beforeLegal, contentLegal⟩
  · exact legal.add (.text contentLegal)

theorem IsLegal.node : frame.node.IsLegal := by
  refine .element _ legal.values ?_
  intro child member
  exact legal.below child (List.mem_reverse.1 member)

end Frame

theorem legal_attributes {scope : Scope} {written : List WrittenAttribute}
    (legal : ∀ found ∈ written, Legal found.value.toList) {attributes : List Attribute}
    (read : scope.attributes? written = some attributes) :
    ∀ found ∈ attributes, Legal found.value.toList := by
  unfold Scope.attributes? at read
  obtain ⟨found, mapped, distinct⟩ := Option.bind_eq_some_iff.1 read
  split_ifs at distinct
  cases distinct
  intro expanded member
  obtain ⟨one, present, same⟩ := exists_of_mem_mapM mapped member
  obtain ⟨name, _, same⟩ := Option.bind_eq_some_iff.1 same
  cases same
  exact legal one (List.mem_of_mem_filter present)

theorem legal_open {outer : Scope} {written : QualifiedName} {attributes : List WrittenAttribute}
    (legal : ∀ found ∈ attributes, Legal found.value.toList) {frame : Frame}
    (opened : Frame.open? outer written attributes = some frame) : frame.IsLegal := by
  unfold Frame.open? at opened
  obtain ⟨inner, _, opened⟩ := Option.bind_eq_some_iff.1 opened
  obtain ⟨name, _, opened⟩ := Option.bind_eq_some_iff.1 opened
  obtain ⟨found, read, opened⟩ := Option.bind_eq_some_iff.1 opened
  cases opened
  exact ⟨legal_attributes legal read, by simp⟩

def Progress.IsLegal : Progress → Prop
  | .before => True
  | .inside frame outer => frame.IsLegal ∧ ∀ other ∈ outer, other.IsLegal
  | .behind root => root.IsLegal

theorem Progress.IsLegal.opened {progress next : Progress} (legal : progress.IsLegal)
    {frame : Frame} (frameLegal : frame.IsLegal) (opened : progress.opened frame = some next) :
    next.IsLegal := by
  cases progress with
  | before =>
    cases opened
    exact ⟨frameLegal, by simp⟩
  | inside parent outer =>
    cases opened
    exact ⟨frameLegal, List.forall_mem_cons.2 legal⟩
  | behind root => cases opened

theorem Progress.IsLegal.closed {progress next : Progress} (legal : progress.IsLegal)
    (closed : progress.closed = some next) : next.IsLegal := by
  cases progress with
  | before => cases closed
  | inside frame outer =>
    obtain ⟨frameLegal, outerLegal⟩ := legal
    cases outer with
    | nil =>
      cases closed
      exact frameLegal.node
    | cons parent outer =>
      cases closed
      obtain ⟨parentLegal, others⟩ := List.forall_mem_cons.1 outerLegal
      exact ⟨parentLegal.add frameLegal.node, others⟩
  | behind root => cases closed

theorem Progress.IsLegal.note {progress : Progress} (legal : progress.IsLegal) {node : Node}
    (nodeLegal : node.IsLegal) : (progress.note node).IsLegal := by
  cases progress with
  | before => exact trivial
  | inside frame outer => exact ⟨legal.1.add nodeLegal, legal.2⟩
  | behind root => exact legal

theorem Progress.IsLegal.step {progress next : Progress} (legal : progress.IsLegal)
    {token : Token} (tokenLegal : token.IsLegal) (stepped : progress.step token = some next) :
    next.IsLegal := by
  cases token with
  | opening name attributes closes =>
    obtain ⟨frame, opened, stepped⟩ := Option.bind_eq_some_iff.1 stepped
    obtain ⟨inner, entered, stepped⟩ := Option.bind_eq_some_iff.1 stepped
    have innerLegal := legal.opened (legal_open tokenLegal opened) entered
    split at stepped
    · exact innerLegal.closed stepped
    · cases stepped
      exact innerLegal
  | closing name =>
    cases progress with
    | inside frame outer =>
      unfold Progress.step at stepped
      dsimp only at stepped
      split at stepped
      · exact legal.closed stepped
      · cases stepped
    | before => cases stepped
    | behind root => cases stepped
  | characters raw =>
    cases progress with
    | inside frame outer =>
      obtain ⟨content, read, stepped⟩ := Option.bind_eq_some_iff.1 stepped
      cases stepped
      exact ⟨legal.1.addText (legal_characterData tokenLegal read), legal.2⟩
    | before =>
      dsimp only [Progress.step] at stepped
      split_ifs at stepped
      cases stepped
      exact legal
    | behind root =>
      dsimp only [Progress.step] at stepped
      split_ifs at stepped
      cases stepped
      exact legal
  | cdata raw =>
    cases progress with
    | inside frame outer =>
      cases stepped
      refine ⟨legal.1.addText ?_, legal.2⟩
      rw [String.toList_ofList]
      exact legal_lineEnds tokenLegal
    | before => cases stepped
    | behind root => cases stepped
  | comment content =>
    cases stepped
    exact legal.note (.comment content)
  | instruction target content =>
    cases stepped
    exact legal.note (.instruction target content)

theorem Progress.IsLegal.run {tokens : List Token} (tokensLegal : ∀ token ∈ tokens, token.IsLegal)
    {progress next : Progress} (legal : progress.IsLegal)
    (ran : tokens.foldlM Progress.step progress = some next) : next.IsLegal := by
  induction tokens generalizing progress with
  | nil =>
    cases ran
    exact legal
  | cons token tokens ih =>
    obtain ⟨first, others⟩ := List.forall_mem_cons.1 tokensLegal
    rw [List.foldlM_cons] at ran
    obtain ⟨middle, stepped, further⟩ := Option.bind_eq_some_iff.1 ran
    exact ih others (legal.step first stepped) further

theorem legal_root {document : String} {root : Node} (read : rootOf document = .ok root) :
    root.IsLegal := by
  obtain ⟨tokens, tokenized, ran⟩ := rootOf_eq_ok_iff.1 read
  have begins : Progress.before.IsLegal := trivial
  exact begins.run (legal_tokens tokenized) ran

end PetriCode.Xml
