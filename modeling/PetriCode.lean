import PetriCode.Files.Tree
import PetriCode.Main
import PetriCode.Proofs.Net.Connection
import PetriCode.Proofs.Text.Uppercase
import PetriCode.Proofs.Generation
import PetriCode.Proofs.Acceptance
import PetriCode.Proofs.Naming.Tables
import PetriCode.Proofs.C.Spelling
import PetriCode.Proofs.C.Syntax
import PetriCode.Proofs.Agreement
import PetriCode.Proofs.Rebuild
import PetriCode.Proofs.Net.Renaming
import PetriCode.Proofs.NormalForm
import PetriCode.Proofs.Settlement
import PetriCode.Proofs.Pnml.Loading
import PetriCode.Proofs.Net.Edits
import PetriCode.Proofs.Stability
import PetriCode.Proofs.Files.Endings
import PetriCode.Proofs.C.Words
import PetriCode.Proofs.Pairs
import PetriCode.Proofs.Emit.Vocabulary
import PetriCode.Proofs.Capture
import PetriCode.Proofs.CommandLine.Flags
import PetriCode.Proofs.Modes
import PetriCode.Proofs.Return
import PetriCode.Proofs.Emit.Layout
import PetriCode.Proofs.Reordering
import PetriCode.Proofs.Net.Faults
import PetriCode.Proofs.Diagnosis
import PetriCode.Proofs.Consistency
import PetriCode.Proofs.Net.History
import PetriCode.Proofs.Xml.Change
import PetriCode.Proofs.Pnml.Influence
import PetriCode.Proofs.Pnml.Pages
import PetriCode.Proofs.Pnml.Notes
import PetriCode.Proofs.Pnml.Depiction
import PetriCode.Proofs.C.Denotation
import PetriCode.Proofs.Pnml.Numbers
import PetriCode.Proofs.Stream
import PetriCode.Proofs.Locality
import PetriCode.Proofs.Ends
import PetriCode.Proofs.Linkage
