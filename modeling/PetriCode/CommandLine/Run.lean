import PetriCode.Build
import PetriCode.CommandLine.Arguments
import PetriCode.Files.Install

/-! A run of the command line on a disk: what it prints and the status it ends with. -/
namespace PetriCode.CommandLine

structure Outcome where
  status : Nat
  stdout : String
  stderr : String
deriving DecidableEq, Repr

def versionText : String := "petrigen-generate 0.1.0\n"

def usageText : String :=
  "Usage: petrigen-generate [OPTIONS] <INPUT> <MODULE>\n\n" ++
  "  <INPUT>                 path of the PNML file\n" ++
  "  <MODULE>                name of the C module\n\n" ++
  "  -o, --output-dir <DIR>  directory of the generated sources [env: PETRIGEN_OUTPUT_DIR]\n" ++
  "      --stdout            print the generated sources instead of writing them\n" ++
  "  -h, --help              print this text\n" ++
  "  -V, --version           print the version\n"

def failed (report : String) : Outcome := ⟨1, "", report ++ "\n"⟩

/-- Writes the sources, or prints them if that is asked for. -/
def deliver {m : Type → Type} [Monad m] (disk : Files.Disk m) (arguments : Arguments)
    (artifacts : Artifacts) : m Outcome := do
  if arguments.toStdout then return ⟨0, artifacts.text, ""⟩
  match ← Files.install disk arguments.outputDirectory artifacts with
  | .error error => return failed error.report
  | .ok (interface, implementation) =>
    return ⟨0, "Generated " ++ interface ++ "\nGenerated " ++ implementation ++ "\n", ""⟩

def generate {m : Type → Type} [Monad m] (disk : Files.Disk m) (arguments : Arguments) :
    m Outcome := do
  match ← build disk (some arguments.module) (some arguments.input) with
  | .error error => return failed error.report
  | .ok artifacts => deliver disk arguments artifacts

def run {m : Type → Type} [Monad m] (disk : Files.Disk m) (environment : Option String)
    (arguments : List String) : m Outcome :=
  match request environment arguments with
  | .generate arguments => generate disk arguments
  | .version => return ⟨0, versionText, ""⟩
  | .help => return ⟨0, usageText, ""⟩
  | .misuse => return ⟨2, "", usageText⟩

end PetriCode.CommandLine
