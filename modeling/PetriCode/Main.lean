import PetriCode.CommandLine.Run

/-! The program: the command line on the disk of the machine. -/
namespace PetriCode.Main
open Files

/-- The faults that the program reports; every other failure of the machine ends it. The machine's
number for a fault comes with either sign. -/
def faultOf? : IO.Error → Option Fault
  | .noFileOrDirectory .. => some .notFound
  | .inappropriateType _ code _ =>
    if code = 20 ∨ code = 0 - 20 then some .notDirectory
    else if code = 21 ∨ code = 0 - 21 then some .isDirectory
    else none
  | .invalidArgument _ code _ =>
    if code = 36 ∨ code = 0 - 36 then some .nameTooLong else none
  | _ => none

def attempt {α : Type} (action : IO α) : IO (Except Fault α) := do
  try return .ok (← action)
  catch error =>
    match faultOf? error with
    | some fault => return .error fault
    | none => throw error

/-- Creates a file under a name that was free and writes it. -/
def stage (directory : String) (content : ByteArray) : IO String := do
  for _ in List.range 100 do
    let number ← IO.rand 0 999999999
    let name := s!".tmp{number}"
    try
      let handle ← IO.FS.Handle.mk (join directory name) .writeNew
      handle.write content
      handle.flush
      return name
    catch
      | .alreadyExists .. => continue
      | error => throw error
  throw (IO.userError "no free name for a temporary file")

def machine : Disk IO where
  read path := attempt (IO.FS.readBinFile path)
  stage directory content := attempt (stage directory content)
  rename directory source target :=
    attempt (IO.FS.rename (join directory source) (join directory target))
  discard directory name := IO.FS.removeFile (join directory name)

end PetriCode.Main

def main (arguments : List String) : IO UInt32 := do
  let environment ← IO.getEnv "PETRIGEN_OUTPUT_DIR"
  let outcome ← PetriCode.CommandLine.run PetriCode.Main.machine environment arguments
  (← IO.getStdout).putStr outcome.stdout
  (← IO.getStderr).putStr outcome.stderr
  return UInt32.ofNat outcome.status
