import PetriCode.Files.Disk
import PetriCode.Generate
import PetriCode.Pnml.Load

/-! Building a module from a PNML file. The module's name and the file's path may be missing; the
name is asked for first, and an empty one is as good as none. -/
namespace PetriCode

inductive BuildError
  | missingName
  | missingInput
  | unreadable (fault : Files.Fault)
  /-- The file is not text in UTF-8. -/
  | notText
  | load (failure : Pnml.Failure)
  | generate (error : GenerateError)
deriving DecidableEq, Repr

/-- The message of an error followed by that of its cause, if it has one. -/
def BuildError.report : BuildError → String
  | missingName => "module name was not set in builder"
  | missingInput => "input path was not set in builder"
  | unreadable fault => fault.message
  | notText => "stream did not contain valid UTF-8"
  | load failure => failure.report
  | generate error => error.report

def buildFrom (module : String) (content : ByteArray) : Except BuildError Artifacts := do
  let some document := String.fromUTF8? content | .error .notText
  let net ← (Pnml.read document).mapError .load
  (PetriCode.generate net module).mapError .generate

def build {m : Type → Type} [Monad m] (disk : Files.Disk m) (name input : Option String) :
    m (Except BuildError Artifacts) := do
  match name.filter (· ≠ ""), input with
  | none, _ => return .error .missingName
  | some _, none => return .error .missingInput
  | some module, some path =>
    match ← disk.read path with
    | .error fault => return .error (.unreadable fault)
    | .ok content => return buildFrom module content

end PetriCode
