import PetriCode.Emit.Files
import PetriCode.Naming.Gathering

/-! Generating a module from a net: its two files with their texts, and the two tables of names that
answer as the lookups in C do. The module name is looked at first, then the names of the nodes,
then the arcs, and the first fault ends the work. -/
namespace PetriCode

structure Artifacts where
  interfaceFile : String
  implementationFile : String
  interface : String
  implementation : String
  places : NameTable
  transitions : NameTable
deriving DecidableEq, Repr

namespace Artifacts

def table (artifacts : Artifacts) : NodeKind → NameTable
  | .place => artifacts.places
  | .transition => artifacts.transitions

/-- Both files in one text, each under a comment with its name. -/
def text (artifacts : Artifacts) : String :=
  "/* " ++ artifacts.interfaceFile ++ " */\n" ++ artifacts.interface ++ "\n/* " ++
    artifacts.implementationFile ++ " */\n" ++ artifacts.implementation

def assemble (naming : Naming) (marking : List Weight) (incidences : List Incidence) :
    Artifacts where
  interfaceFile := naming.module.interfaceFile
  implementationFile := naming.module.implementationFile
  interface := C.unitText (Emit.interface naming)
  implementation := C.unitText (Emit.implementation naming marking incidences)
  places := naming.table .place
  transitions := naming.table .transition

end Artifacts

inductive GenerateError
  | invalidModuleName (text : String)
  | naming (error : NamingError)
  | malformedArc (arc : MalformedArc)
deriving DecidableEq, Repr

def MalformedArc.message (arc : MalformedArc) : String :=
  "arc " ++ String.ofList (Nat.toDigits 10 arc.index) ++ " from `" ++ arc.source ++ "` to `" ++
    arc.target ++ "` is malformed"

def GenerateError.message : GenerateError → String
  | invalidModuleName text => "module name `" ++ text ++ "` is not a valid C identifier"
  | naming error => error.message
  | malformedArc arc => arc.message

def GenerateError.report : GenerateError → String
  | malformedArc arc => arc.message ++ ": " ++ arc.fault.message
  | error => error.message

def Net.marking (net : Net) : List Weight := net.places.entries.map Place.marking

def generate (net : Net) (module : String) : Except GenerateError Artifacts := do
  let some module := ModuleName.ofString? module | .error (.invalidModuleName module)
  let naming ← (net.naming module).mapError .naming
  let incidences ← net.incidences.mapError .malformedArc
  return .assemble naming net.marking incidences

end PetriCode
