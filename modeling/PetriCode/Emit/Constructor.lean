import PetriCode.Naming.Assignment
import PetriCode.Net.Incidence

/-! The function in C that builds a net: it allocates places and transitions, sets the marking of
the places if there are any, and connects the arcs one by one. -/
namespace PetriCode.Emit
open C

def constructorHead (module : ModuleName) : Prototype :=
  ⟨.pointer "PetriNet", module.lower ++ "_petri_new", none⟩

def allocation (naming : Naming) : List Statement :=
  [.define ⟨.pointer "PetriNet", "net"⟩ "petri_new"
      [.name (naming.count .place), .name (naming.count .transition)],
    .returnsIf (.isNull "net") .null]

def markingStatements (naming : Naming) (marking : List Weight) : List Statement :=
  [.defineArray "pn_weight" "m" (naming.count .place) marking,
    .call "petri_marking_set" [.name "net", .name "m"]]

/-- The call that connects an arc: the node it leaves, the node it enters and its weight. -/
def arcStatement (naming : Naming) (incidence : Incidence) : Statement :=
  let place := naming.nameAt .place incidence.place
  let transition := naming.nameAt .transition incidence.transition
  match incidence.direction with
  | .input =>
    .call "petri_conf_input"
      [.name "net", .name place, .name transition, .number incidence.weight]
  | .output =>
    .call "petri_conf_output"
      [.name "net", .name transition, .name place, .number incidence.weight]

def constructor (naming : Naming) (marking : List Weight) (incidences : List Incidence) :
    Definition :=
  ⟨constructorHead naming.module,
    [allocation naming] ++
      (if marking = [] then [] else [markingStatements naming marking]) ++
      (if incidences = [] then [] else [incidences.map (arcStatement naming)]) ++
      [[.returns (.name "net")]]⟩

end PetriCode.Emit
