import PetriCode.Proofs.Emit.Items

/-! The lines of an implementation. Only two stretches of them depend on more than the names: the lines that
set the marking, and those that connect the arcs, one for each arc. -/
namespace PetriCode.Emit
open C
variable (naming : Naming) (marking : List Weight) (incidences : List Incidence)

/-- The lines of some paragraphs of declarations. -/
def paragraphLines (unit : TranslationUnit) : List (List String) :=
  unit.map fun paragraph => paragraph.flatMap Declaration.lines

/-- The lines before the marking: the includes, the tables, and the beginning of the constructor. -/
def openingLines : List String :=
  spaced (paragraphLines (preamble naming)) ++
    ["", (constructorHead naming.module).text, "\x7b",
      "    PetriNet *net = petri_new(" ++ naming.count .place ++ ", " ++ naming.count .transition ++
        ");",
      "    if (net == NULL) return NULL;"]

/-- The lines that set the marking, if there is a place to mark. -/
def markingLines : List String :=
  if marking = [] then []
  else ["", "    pn_weight m[" ++ naming.count .place ++ "] = " ++ initializer marking ++ ";",
    "    petri_marking_set(net, m);"]

/-- The lines of the calls that connect the arcs, behind an empty line if there are any. -/
def connectingLines (calls : List String) : List String :=
  if calls = [] then [] else "" :: indented calls

/-- The lines behind the calls: the end of the constructor, and the lookups. -/
def closingLines : List String :=
  ["", "    return net;", "\x7d", ""] ++ spaced (paragraphLines (lookups naming))

/-- The call that connects an arc, as it is written. -/
def arcCall (incidence : Incidence) : String :=
  let place := naming.nameAt .place incidence.place
  let transition := naming.nameAt .transition incidence.transition
  let weight := Text.Numeral.write incidence.weight
  match incidence.direction with
  | .input => "petri_conf_input(net, " ++ place ++ ", " ++ transition ++ ", " ++ weight ++ ");"
  | .output => "petri_conf_output(net, " ++ transition ++ ", " ++ place ++ ", " ++ weight ++ ");"

theorem lines_arcStatement (incidence : Incidence) :
    (arcStatement naming incidence).lines = [arcCall naming incidence] := by
  unfold arcStatement arcCall
  cases incidence.direction <;>
    simp [Statement.lines, callText, Operand.text, ← String.toList_inj]

theorem flatMap_lines_arcStatement :
    (incidences.map (arcStatement naming)).flatMap Statement.lines =
      incidences.map (arcCall naming) := by
  rw [List.flatMap_map, List.map_eq_flatMap]
  exact List.flatMap_congr fun incidence _ => lines_arcStatement naming incidence

theorem lines_constructor : (constructor naming marking incidences).lines =
    ([(constructorHead naming.module).text, "\x7b",
      "    PetriNet *net = petri_new(" ++ naming.count .place ++ ", " ++ naming.count .transition ++
        ");",
      "    if (net == NULL) return NULL;"] ++ markingLines naming marking ++
        connectingLines (incidences.map (arcCall naming)) ++ ["", "    return net;", "\x7d"]) := by
  have allocated : indented ((allocation naming).flatMap Statement.lines) =
      ["    PetriNet *net = petri_new(" ++ naming.count .place ++ ", " ++
        naming.count .transition ++ ");", "    if (net == NULL) return NULL;"] := by
    simp [allocation, indented, Statement.lines, callText, Operand.text, Operand.null,
      Variable.text, TypeName.declare, Condition.text, ← String.toList_inj]
  have marked : indented ((markingStatements naming marking).flatMap Statement.lines) =
      ["    pn_weight m[" ++ naming.count .place ++ "] = " ++ initializer marking ++ ";",
        "    petri_marking_set(net, m);"] := by
    simp [markingStatements, indented, Statement.lines, callText, Operand.text,
      ← String.toList_inj]
  have returned : indented (Statement.returns (.name "net")).lines = ["    return net;"] := rfl
  unfold constructor markingLines connectingLines Definition.lines
  simp only [List.map_eq_nil_iff]
  by_cases unmarked : marking = [] <;> by_cases unconnected : incidences = [] <;>
    simp [unmarked, unconnected, spaced, allocated, marked, returned, flatMap_lines_arcStatement]

theorem lines_implementation : unitLines (implementation naming marking incidences) =
    openingLines naming ++ markingLines naming marking ++
      connectingLines (incidences.map (arcCall naming)) ++ closingLines naming := by
  have before : paragraphLines (preamble naming) ≠ [] := by simp [paragraphLines, preamble]
  have after : paragraphLines (lookups naming) ≠ [] := by
    simp [paragraphLines, lookups, NodeKind.all]
  have middle : paragraphLines [[.function (constructor naming marking incidences)]] =
      [(constructor naming marking incidences).lines] := by
    simp [paragraphLines, Declaration.lines]
  rw [implementation_eq, unitLines, ← paragraphLines, paragraphLines, List.map_append,
    List.map_append, ← paragraphLines, ← paragraphLines, ← paragraphLines, middle,
    spaced_append (by simp) after, spaced_append before (by simp), spaced_singleton,
    lines_constructor]
  simp [openingLines, closingLines]

/-- An implementation is the text of its lines. -/
theorem toList_implementation : (unitText (implementation naming marking incidences)).toList =
    laid (openingLines naming ++ markingLines naming marking ++
      connectingLines (incidences.map (arcCall naming)) ++ closingLines naming) := by
  rw [← lines_implementation, implementation_laid]

end PetriCode.Emit
