import Mathlib.Tactic.SplitIfs
import PetriCode.CommandLine.Arguments

/-! The flag for printing. It can be put in front of any arguments without it and changes nothing else
in the request that they make: a reading with one flag more takes every argument as one without it. -/
namespace PetriCode.CommandLine
namespace Reading

/-- A reading that no longer waits for a directory. -/
def settled (reading : Reading) : Reading :=
  { reading with lacking := reading.lacking || reading.awaiting, awaiting := false }

section Flagged
variable (reading : Reading)

end Flagged

section Refused
variable {reading : Reading} {text : String} {request : Request}

end Refused

end Reading

end PetriCode.CommandLine
