/-! The arguments of the command line. An argument that begins with a hyphen is an option, unless it
is a hyphen alone or comes behind two hyphens that stand alone; an option's value may be joined
to it or be the next argument. Requests for help or for the version are granted at once, unknown
options and a third operand refused at once; what is missing, or given twice, is found out at the
end. -/
namespace PetriCode.CommandLine

structure Arguments where
  input : String
  module : String
  outputDirectory : String
  toStdout : Bool
deriving DecidableEq, Repr

inductive Request
  | generate (arguments : Arguments)
  | version
  | help
  | misuse
deriving DecidableEq, Repr

structure Reading where
  operands : List String
  directories : List String
  stdoutFlags : Nat
  /-- Whether the next argument may be the directory. -/
  awaiting : Bool
  /-- Whether a directory was asked for and did not come. -/
  lacking : Bool

namespace Reading

def start : Reading := ⟨[], [], 0, false, false⟩

/-- The request that complete arguments make. Without a directory among them the given one is
meant. -/
def finish (reading : Reading) (directory : String) : Request :=
  if reading.awaiting || reading.lacking then .misuse
  else if reading.directories.length > 1 || reading.stdoutFlags > 1 then .misuse
  else match reading.operands with
    | [input, module] =>
      .generate ⟨input, module, reading.directories.headD directory, reading.stdoutFlags == 1⟩
    | _ => .misuse

/-- An operand, of which there may be two. -/
def operand (reading : Reading) (argument : String) : Except Request Reading :=
  if reading.operands.length < 2 then
    .ok { reading with operands := reading.operands ++ [argument] }
  else .error .misuse

def value (reading : Reading) (directory : String) : Reading :=
  { reading with directories := reading.directories ++ [directory], awaiting := false }

/-- An option of two hyphens, given without them and with the text behind its equals sign. -/
def longOption (reading : Reading) : String → Option String → Except Request Reading
  | "output-dir", none => .ok { reading with awaiting := true }
  | "output-dir", some directory => .ok (reading.value directory)
  | "stdout", none => .ok { reading with stdoutFlags := reading.stdoutFlags + 1 }
  | "version", none => .error .version
  | "help", none => .error .help
  | _, _ => .error .misuse

/-- An option of one hyphen, given without it and with the text behind its letter. -/
def shortOption (reading : Reading) : Char → List Char → Except Request Reading
  | 'o', [] => .ok { reading with awaiting := true }
  | 'o', '=' :: directory => .ok (reading.value (String.ofList directory))
  | 'o', directory => .ok (reading.value (String.ofList directory))
  | 'V', _ => .error .version
  | 'h', _ => .error .help
  | _, _ => .error .misuse

def splitValue (option : List Char) : String × Option String :=
  match option.span (· ≠ '=') with
  | (name, []) => (String.ofList name, none)
  | (name, _ :: directory) => (String.ofList name, some (String.ofList directory))

/-- An argument in front of two lone hyphens, which themselves are none. -/
def argument (reading : Reading) (text : String) : Except Request Reading :=
  match text.toList with
  | '-' :: '-' :: option =>
    let (name, joined) := splitValue option
    { reading with lacking := reading.lacking || reading.awaiting, awaiting := false }.longOption
      name joined
  | '-' :: letter :: rest =>
    { reading with lacking := reading.lacking || reading.awaiting, awaiting := false }.shortOption
      letter rest
  | _ => if reading.awaiting then .ok (reading.value text) else reading.operand text

end Reading

def requestAfter (directory : String) (reading : Reading) : List String → Request
  | [] => reading.finish directory
  | "--" :: operands =>
    let ended := { reading with lacking := reading.lacking || reading.awaiting, awaiting := false }
    match operands.foldlM Reading.operand ended with
    | .error request => request
    | .ok reading => reading.finish directory
  | text :: rest =>
    match reading.argument text with
    | .error request => request
    | .ok reading => requestAfter directory reading rest

/-- The request that arguments make. The environment may name the directory that is meant without an
option; the working directory is meant if neither does. -/
def request (environment : Option String) (arguments : List String) : Request :=
  requestAfter (environment.getD ".") .start arguments

end PetriCode.CommandLine
