import PetriCode.Emit.Constructor
import PetriCode.Emit.Lookup

/-! The two files of a module. The interface enumerates places and transitions and declares five
functions; the implementation holds a table of names for each kind of nodes that occurs, and
defines the five functions in the same order. -/
namespace PetriCode.Emit
open C

def runtimeHeader : String := "petri.h"

def banner (module : ModuleName) : Declaration :=
  .comment ("Generated from Petri net model `" ++ module.lower ++ "`. Do not edit.")

/-- The heads of the five functions in the order in which they are declared and defined. -/
def heads (module : ModuleName) : List Prototype :=
  constructorHead module ::
    NodeKind.all.map (textHead module) ++ NodeKind.all.map (positionHead module)

def enumeration (naming : Naming) (kind : NodeKind) : Declaration :=
  .enumeration (naming.module.enumeration kind) (naming.names kind) (naming.count kind)

def interface (naming : Naming) : TranslationUnit :=
  [[banner naming.module, .pragmaOnce], [.includeQuoted runtimeHeader]] ++
    NodeKind.all.map (fun kind => [enumeration naming kind]) ++
    [(heads naming.module).map .prototype]

def tables (naming : Naming) : List NameTable :=
  (NodeKind.all.map naming.table).filter (·.names ≠ [])

def definitions (naming : Naming) (marking : List Weight) (incidences : List Incidence) :
    List Definition :=
  constructor naming marking incidences ::
    NodeKind.all.map (textLookup naming) ++ NodeKind.all.map (positionLookup naming)

def implementation (naming : Naming) (marking : List Weight) (incidences : List Incidence) :
    TranslationUnit :=
  [[banner naming.module, .includeSystem "stddef.h", .includeSystem "string.h"],
    [.includeQuoted runtimeHeader, .includeQuoted naming.module.interfaceFile]] ++
    (tables naming).map (fun table => [table.declaration]) ++
    (definitions naming marking incidences).map (fun definition => [.function definition])

end PetriCode.Emit
