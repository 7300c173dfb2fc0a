import PetriCode.Files.Disk
import PetriCode.Generate

/-! Installing the two files of a module in a directory. Both are staged before either gets its
name, the interface first, and whatever has been staged and not named is discarded, the file that was
refused its name first. -/
namespace PetriCode.Files

structure InstallError where
  /-- The path of the file that was to be written. -/
  path : String
  fault : Fault
deriving DecidableEq, Repr

def InstallError.message (error : InstallError) : String :=
  "cannot write artifact to " ++ error.path

def InstallError.report (error : InstallError) : String :=
  error.message ++ ": " ++ error.fault.message

/-- The paths of the two files, once they are in their places. -/
def install {m : Type → Type} [Monad m] (disk : Disk m) (directory : String)
    (artifacts : Artifacts) : m (Except InstallError (String × String)) := do
  let interfacePath := join directory artifacts.interfaceFile
  let implementationPath := join directory artifacts.implementationFile
  match ← disk.stage directory artifacts.interface.toUTF8 with
  | .error fault => return .error ⟨interfacePath, fault⟩
  | .ok interface =>
    match ← disk.stage directory artifacts.implementation.toUTF8 with
    | .error fault =>
      disk.discard directory interface
      return .error ⟨implementationPath, fault⟩
    | .ok implementation =>
      match ← disk.rename directory interface artifacts.interfaceFile with
      | .error fault =>
        disk.discard directory interface
        disk.discard directory implementation
        return .error ⟨interfacePath, fault⟩
      | .ok () =>
        match ← disk.rename directory implementation artifacts.implementationFile with
        | .error fault =>
          disk.discard directory implementation
          return .error ⟨implementationPath, fault⟩
        | .ok () => return .ok (interfacePath, implementationPath)

end PetriCode.Files
