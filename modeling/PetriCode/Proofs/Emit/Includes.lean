import PetriCode.Proofs.C.Headers
import PetriCode.Proofs.Capture
import PetriCode.Proofs.Emit.Layout

/-! The headers that the two files of a module include. The names of nodes stand as they are in the
enumerations and in the calls that connect the arcs, and have no lower case letter; everything else is
code or stands in literals. So whatever the labels are, the interface includes the header of the
runtime, and the implementation includes that header and the interface. -/
namespace PetriCode.Emit
open C
variable {net : Net} {module : ModuleName}

theorem hasLower_append (front back : String) :
    hasLower (front ++ back) = (hasLower front || hasLower back) := by
  rw [hasLower, String.toList_append, List.any_append, ← hasLower, ← hasLower]

theorem hasLower_write (value : Weight) : hasLower (Text.Numeral.write value) = false := by
  rw [hasLower, Text.Numeral.write, String.toList_ofList, List.any_eq_false]
  intro c member
  have noStart := start_of_isDigit (isDigit_of_mem_toDigits value c member)
  simp only [isIdentifierStart, Text.isAlpha_eq, Bool.or_eq_false_iff] at noStart
  exact Bool.eq_false_iff.1 noStart.1.2

theorem hasLower_nameAt (net : Net) (module : ModuleName) (kind : NodeKind) (position : Nat) :
    hasLower ((net.named module).nameAt kind position) = false := by
  apply hasLower_of_constant
  refine Naming.mem_enumerations.2 ⟨kind, ?_⟩
  rw [Naming.constants, List.mem_append, List.mem_singleton, Naming.nameAt]
  cases found : ((net.named module).names kind)[position]? with
  | none => exact .inr rfl
  | some name => exact .inl (List.mem_of_getElem? found)

/-- A line with one stretch that has no lower case letter. -/
theorem hushes_stretch {front name : String} {mark : Char}
    (plain : front.toList.all fun c => c ≠ '#' ∧ c ≠ '?' ∧ c ≠ '\\')
    (upper : hasLower name = false) (closes : mark = ',' ∨ mark = ';') :
    Hushes (laid [front ++ name ++ String.ofList [mark]]) := by
  rw [List.all_eq_true] at plain
  rw [hasLower, List.any_eq_false] at upper
  have solid : Plain front.toList := fun c member => (of_decide_eq_true (plain c member)).2
  have named := hushes_named solid.solid (fun sharp => absurd (plain _ sharp) (by decide))
    (fun c member => Bool.eq_false_iff.2 (upper c member)) closes
  simpa [laid] using named

theorem hushes_enumeration (kind : NodeKind) :
    ∀ line ∈ (enumeration (net.named module) kind).lines, Hushes (laid [line]) := by
  have isTag := module.isName_enumeration kind
  have isCount := module.isName_count kind
  have fixed := hushes_spelled (spells_enumeration isTag isCount (List.forall_mem_nil _))
    (by simp [Declaration.pieces])
  intro line member
  simp only [enumeration, Declaration.lines, List.map_nil, List.append_nil, List.mem_append,
    List.mem_map, List.mem_cons, List.not_mem_nil, or_false] at member fixed
  obtain (rfl | ⟨name, listed, rfl⟩) | closing := member
  · exact fixed _ (.inl rfl)
  · have upper : hasLower name = false :=
      hasLower_of_constant (Naming.mem_enumerations.2 ⟨kind, List.mem_append_left _ listed⟩)
    exact hushes_stretch (by decide) upper (.inl rfl)
  · exact fixed line (.inr closing)

/-- A call with two names of nodes and a weight behind its first argument. -/
theorem hushes_call (front : String) {first second : String} (weight : Weight)
    (plain : front.toList.all fun c => c ≠ '#' ∧ c ≠ '?' ∧ c ≠ '\\')
    (firstUpper : hasLower first = false) (secondUpper : hasLower second = false) :
    Hushes (laid [front ++ first ++ ", " ++ second ++ ", " ++ Text.Numeral.write weight ++ ");"]) := by
  have comma : hasLower ", " = false := by decide
  have closing : hasLower ")" = false := by decide
  have upper : hasLower (first ++ ", " ++ second ++ ", " ++ Text.Numeral.write weight ++ ")") =
      false := by
    simp only [hasLower_append, firstUpper, secondUpper, hasLower_write, comma, closing, Bool.or_self]
  have stretch := hushes_stretch plain upper (.inr rfl)
  simpa [laid] using stretch

theorem hushes_arcCall (incidence : Incidence) :
    Hushes (laid ["    " ++ arcCall (net.named module) incidence]) := by
  have place := hasLower_nameAt net module .place incidence.place
  have transition := hasLower_nameAt net module .transition incidence.transition
  unfold arcCall
  cases incidence.direction with
  | input =>
    have written := hushes_call "    petri_conf_input(net, " incidence.weight (by decide +kernel)
      place transition
    simpa [laid] using written
  | output =>
    have written := hushes_call "    petri_conf_output(net, " incidence.weight (by decide +kernel)
      transition place
    simpa [laid] using written

/-- Apart from the calls that connect the arcs the constructor is readable whatever the labels are. -/
theorem hushes_constructor (marking : List Weight) (incidences : List Incidence) :
    ∀ line ∈ (constructor (net.named module) marking incidences).lines, Hushes (laid [line]) := by
  -- The lines without calls are those of the constructor for no arcs, which is readable.
  have calls : ∀ incidence ∈ [], (arcStatement (net.named module) incidence).Readable :=
    List.forall_mem_nil _
  have fixed := hushes_definition (readable_constructor marking calls)
  rw [lines_constructor] at fixed ⊢
  intro line member
  by_cases connects : line ∈ connectingLines (incidences.map (arcCall (net.named module)))
  · unfold connectingLines at connects
    split_ifs at connects
    · cases connects
    · obtain rfl | indented := List.mem_cons.1 connects
      · exact fixed "" (by simp)
      · obtain ⟨call, listed, rfl⟩ := List.mem_map.1 indented
        obtain ⟨incidence, _, rfl⟩ := List.mem_map.1 listed
        exact hushes_arcCall incidence
  · apply fixed
    simp only [List.mem_append, connects, or_false] at member ⊢
    simpa [connectingLines] using member

theorem header?_nameArray (array size : String) (names : List String) :
    (Declaration.nameArray array size names).tokens.filterMap Token.header? = [] := by
  have literals : (tokensOf (names.map fun name =>
      [Piece.literal name, .mark ","]).flatten).filterMap Token.header? = [] := by
    induction names with
    | nil => rfl
    | cons name names ih => simpa [Token.header?] using ih
  simp only [Declaration.tokens, Declaration.pieces, List.flatten_append, List.flatten_singleton,
    tokensOf_append, List.filterMap_append, literals]
  rfl

theorem header?_includeQuoted {header : String} (proper : '"' ∉ header.toList) :
    (Declaration.includeQuoted header).tokens.filterMap Token.header? = [header] := by
  simp [Declaration.tokens, Declaration.pieces, Token.header?, included?_quoted proper]

theorem header?_runtimeHeader :
    (Declaration.includeQuoted runtimeHeader).tokens.filterMap Token.header? = [runtimeHeader] :=
  header?_includeQuoted (by decide)

theorem header?_banner (module : ModuleName) :
    (banner module).tokens.filterMap Token.header? = [] := rfl

/-- The interface includes the header of the runtime and nothing else. -/
theorem headers_interface (net : Net) (module : ModuleName) :
    headers (unitText (interface (net.named module))) = [runtimeHeader] := by
  have parts : interface (net.named module) =
      [[banner module, .pragmaOnce], [.includeQuoted runtimeHeader]] ++
        (NodeKind.all.map (fun kind => [enumeration (net.named module) kind]) ++
          [(heads module).map .prototype]) := rfl
  have written := interface_laid (net.named module)
  have petri : (Declaration.includeQuoted runtimeHeader).Readable := readable_include (by decide)
  have pragma : Declaration.pragmaOnce.Readable := trivial
  rw [headers_unitText parts (by simp) (by simp) written (by simp [readable_banner, petri, pragma])]
  · have skipped : Declaration.pragmaOnce.tokens.filterMap Token.header? = [] := by decide
    simp [header?_banner, skipped, header?_runtimeHeader]
  · intro paragraph member declaration present
    obtain inside | last := List.mem_append.1 member
    · obtain ⟨kind, _, rfl⟩ := List.mem_map.1 inside
      obtain rfl := List.mem_singleton.1 present
      exact hushes_enumeration kind
    · obtain rfl := List.mem_singleton.1 last
      obtain ⟨head, listed, rfl⟩ := List.mem_map.1 present
      exact hushes_prototype (readable_heads module head listed)

theorem header?_tables (naming : Naming) :
    (((tables naming).map fun table => [table.declaration]).flatten.flatMap
      Declaration.tokens).filterMap Token.header? = [] := by
  induction tables naming with
  | nil => rfl
  | cons table tables ih =>
    simpa [NameTable.declaration, header?_nameArray, List.filterMap_append] using ih

/-- The implementation includes the header of the runtime and the interface. -/
theorem headers_implementation (net : Net) (module : ModuleName) (incidences : List Incidence) :
    headers (unitText (implementation (net.named module) net.marking incidences)) =
      [runtimeHeader, module.interfaceFile] := by
  have parts := (implementation_eq (net.named module) net.marking incidences).trans
    (List.append_assoc _ _ _)
  have written := implementation_laid (net.named module) net.marking incidences
  rw [headers_unitText parts (by simp [preamble]) (by simp) written (readable_preamble _)]
  · have stddef : (Declaration.includeSystem "stddef.h").tokens.filterMap Token.header? = [] := by
      decide
    have string : (Declaration.includeSystem "string.h").tokens.filterMap Token.header? = [] := by
      decide
    have proper : '"' ∉ module.interfaceFile.toList := by
      have lower : '"' ∉ module.lower.toList := module.not_mem_lower (by decide)
      simp [ModuleName.interfaceFile, lower]
    have own : (Declaration.includeQuoted (net.named module).module.interfaceFile).tokens.filterMap
        Token.header? = [module.interfaceFile] := header?_includeQuoted proper
    rw [preamble, List.flatten_append, List.flatMap_append, List.filterMap_append, header?_tables]
    simp [header?_banner, stddef, string, header?_runtimeHeader, own]
  · intro paragraph member declaration present
    obtain single | behind := List.mem_append.1 member
    · obtain rfl := List.mem_singleton.1 single
      obtain rfl := List.mem_singleton.1 present
      exact hushes_constructor net.marking incidences
    · have readable := readable_lookups _ paragraph behind declaration present
      obtain ⟨definition, _, rfl⟩ := List.mem_map.1 behind
      obtain rfl := List.mem_singleton.1 present
      exact hushes_definition readable

end PetriCode.Emit
