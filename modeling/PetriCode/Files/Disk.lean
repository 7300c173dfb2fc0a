/-! What the program asks of a disk: to read a file, to write a new file beside others under a name
of the disk's own choice, to give it its final name, and to take it away again. -/
namespace PetriCode.Files

inductive Fault
  | notFound
  | notDirectory
  | isDirectory
  | nameTooLong
  | nulInPath
deriving DecidableEq, Repr

def Fault.message : Fault → String
  | notFound => "No such file or directory (os error 2)"
  | notDirectory => "Not a directory (os error 20)"
  | isDirectory => "Is a directory (os error 21)"
  | nameTooLong => "File name too long (os error 36)"
  | nulInPath => "file name contained an unexpected NUL byte"

/-- A disk that is worked on in a monad. Directories are given by their paths, and the files in them
by their names. -/
structure Disk (m : Type → Type) where
  read : String → m (Except Fault ByteArray)
  /-- Writes a new file in a directory and gives the name that it has there. -/
  stage : String → ByteArray → m (Except Fault String)
  /-- Gives a file of a directory another name there, in place of the file that had that name. -/
  rename : String → String → String → m (Except Fault Unit)
  discard : String → String → m Unit

def join (directory name : String) : String :=
  if directory = "" ∨ directory.toList.getLast? = some '/' then directory ++ name
  else directory ++ "/" ++ name

end PetriCode.Files
