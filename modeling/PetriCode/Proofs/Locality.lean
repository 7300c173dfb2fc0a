import PetriCode.Proofs.NormalForm
import PetriCode.Proofs.Reordering

/-! What of a net has a say in which part of its module. The files, the interface and the tables follow from
the names; of the implementation only the initial values of the marking and the calls that connect the arcs
do not. One more arc is one more call behind the others. -/
namespace PetriCode
open C

namespace Emit

/-- What stands in an implementation around the initial values of the marking and around the calls. -/
structure Frame where
  before : String
  middle : String
  behind : String

/-- The frame of an implementation. Without places there is no marking in it, and the calls come directly
behind what is before. -/
def frame (naming : Naming) : Frame where
  before := String.ofList (laid (openingLines naming)) ++
    if naming.places = [] then "" else "\n    pn_weight m[" ++ naming.count .place ++ "] = "
  middle := if naming.places = [] then "" else ";\n    petri_marking_set(net, m);\n"
  behind := String.ofList (laid (closingLines naming))

/-- The initial values of the marking as they are written, nothing where there are none. -/
def initialValues (marking : List Weight) : String :=
  if marking = [] then "" else initializer marking

/-- The calls that connect the arcs as they are written, each on a line of its own. -/
def callBlock (calls : List String) : String := String.ofList (laid (connectingLines calls))

def Frame.fill (frame : Frame) (values calls : String) : String :=
  frame.before ++ values ++ frame.middle ++ calls ++ frame.behind

theorem implementation_filled {naming : Naming} {marking : List Weight}
    (incidences : List Incidence) (placeless : marking = [] ↔ naming.places = []) :
    unitText (implementation naming marking incidences) = (frame naming).fill (initialValues marking)
      (callBlock (incidences.map (arcCall naming))) := by
  rw [← String.toList_inj, toList_implementation]
  by_cases unmarked : marking = []
  · simp [frame, Frame.fill, initialValues, callBlock, markingLines, unmarked, placeless.1 unmarked]
  · simp [frame, Frame.fill, initialValues, callBlock, markingLines, unmarked, mt placeless.2 unmarked]

/-- The lines of one more call, behind an empty line if it is the first one. -/
def insertedLines (calls : List String) (call : String) : List String :=
  if calls = [] then ["", "    " ++ call] else ["    " ++ call]

theorem connectingLines_concat (calls : List String) (call : String) :
    connectingLines (calls ++ [call]) = connectingLines calls ++ insertedLines calls call := by
  by_cases none : calls = []
  · simp [connectingLines, insertedLines, none, indented]
  · simp [connectingLines, insertedLines, none, indented]

/-- The lines of an implementation up to the last call. -/
def frontLines (naming : Naming) (marking : List Weight) (calls : List String) : List String :=
  openingLines naming ++ markingLines naming marking ++ connectingLines calls

theorem getLast?_frontLines_of_calls (naming : Naming) (marking : List Weight) {calls : List String}
    {last : String} (final : calls.getLast? = some last) :
    (frontLines naming marking calls).getLast? = some ("    " ++ last) := by
  have inhabited : calls ≠ [] := by
    rintro rfl
    cases final
  have block : (connectingLines calls).getLast? = some ("    " ++ last) := by
    rw [connectingLines, if_neg inhabited, indented, List.getLast?_cons, List.getLast?_map, final]
    rfl
  rw [frontLines, List.getLast?_append, block]
  rfl

theorem getLast?_frontLines_of_marking (naming : Naming) {marking : List Weight}
    (marked : marking ≠ []) :
    (frontLines naming marking []).getLast? = some "    petri_marking_set(net, m);" := by
  simp [frontLines, connectingLines, markingLines, marked]

theorem getLast?_frontLines_nil (naming : Naming) :
    (frontLines naming [] []).getLast? = some "    if (net == NULL) return NULL;" := by
  simp [frontLines, connectingLines, markingLines, openingLines]

end Emit

namespace Net

/-- Two modules of nets with the same names. Their implementations have the same frame and differ in the
initial values of the marking and in the calls at most; where these are the same, so are the modules. -/
structure Resembles (net other : Net) (frame : Emit.Frame) (artifacts again : Artifacts) : Prop where
  interfaceFile : again.interfaceFile = artifacts.interfaceFile
  implementationFile : again.implementationFile = artifacts.implementationFile
  interface : again.interface = artifacts.interface
  tables : ∀ kind, again.table kind = artifacts.table kind
  implementations : ∃ calls others, List.Forall₂ net.Calls net.arcs calls ∧
    List.Forall₂ other.Calls other.arcs others ∧
    artifacts.implementation = frame.fill (Emit.initialValues net.marking) (Emit.callBlock calls) ∧
    again.implementation = frame.fill (Emit.initialValues other.marking) (Emit.callBlock others)
  same : other.marking = net.marking → other.incidences = net.incidences → again = artifacts

/-- An implementation and what it becomes by one more call. The new line stands behind the last call, and if
there was none, with an empty line before it, behind the marking or behind the test of the new net. -/
structure Inserts (net : Net) (call implementation changed : String) (front back calls : List String) :
    Prop where
  connected : List.Forall₂ net.Calls net.arcs calls
  before : implementation.toList = laid (front ++ back)
  after : changed.toList = laid (front ++ Emit.insertedLines calls call ++ back)
  behindCalls : ∀ last, calls.getLast? = some last → front.getLast? = some ("    " ++ last)
  behindMarking : net.arcs = [] → net.places.entries ≠ [] →
    front.getLast? = some "    petri_marking_set(net, m);"
  behindTest : net.arcs = [] → net.places.entries = [] →
    front.getLast? = some "    if (net == NULL) return NULL;"
  returns : ∃ rest, back = "" :: "    return net;" :: rest

theorem named_eq_of_names {net other : Net}
    (names : ∀ kind, (other.labels kind).map Text.uppercase = (net.labels kind).map Text.uppercase)
    (module : ModuleName) : other.named module = net.named module := by
  have same (kind : NodeKind) : (other.named module).names kind = (net.named module).names kind := by
    rw [names_named_kind, names_named_kind, names]
  rw [named, named, Naming.mk.injEq]
  exact ⟨rfl, same .place, same .transition⟩

theorem placeless_iff {net : Net} {module : ModuleName} :
    net.marking = [] ↔ (net.named module).places = [] := by
  rw [marking, named, List.map_eq_nil_iff, List.map_eq_nil_iff]

section Assembled
variable {net other : Net} {module : ModuleName} {incidences others : List Incidence}

theorem implementation_assembled (module : ModuleName)
    (resolved : List.Forall₂ net.Connects net.arcs incidences) :
    ∃ calls, List.Forall₂ net.Calls net.arcs calls ∧
      (Artifacts.assemble (net.named module) net.marking incidences).implementation =
        (Emit.frame (net.named module)).fill (Emit.initialValues net.marking) (Emit.callBlock calls) :=
  ⟨_, calls_of_connections module resolved, Emit.implementation_filled incidences placeless_iff⟩

theorem resembles_assembled (same : other.named module = net.named module)
    (resolved : List.Forall₂ net.Connects net.arcs incidences)
    (reresolved : List.Forall₂ other.Connects other.arcs others) :
    net.Resembles other (Emit.frame (net.named module))
      (.assemble (net.named module) net.marking incidences)
      (.assemble (other.named module) other.marking others) where
  interfaceFile := rfl
  implementationFile := rfl
  interface := by simp only [Artifacts.assemble, same]
  tables := by
    intro kind
    rw [Artifacts.table_assemble, Artifacts.table_assemble, same]
  implementations := by
    obtain ⟨calls, connected, filled⟩ := implementation_assembled module resolved
    obtain ⟨recalls, reconnected, refilled⟩ := implementation_assembled module reresolved
    rw [same] at refilled
    exact ⟨calls, recalls, connected, reconnected, filled, by rw [same, refilled]⟩
  same := by
    intro marking equal
    rw [incidences_eq_ok_iff.2 resolved, incidences_eq_ok_iff.2 reresolved, Except.ok.injEq] at equal
    rw [same, marking, equal]

theorem Connects.addArc {added arc : Arc} {incidence : Incidence}
    (connects : net.Connects arc incidence) : (net.addArc added).Connects arc incidence := by
  have inscribed := (weightOf_eq_ok_iff.1 connects.weightOf).1
  apply connects.reinscribed _ _ inscribed <;> rfl

theorem connections_addArc {arc : Arc} {incidence : Incidence}
    (resolved : List.Forall₂ net.Connects net.arcs incidences) (connects : net.Connects arc incidence) :
    List.Forall₂ (net.addArc arc).Connects (net.addArc arc).arcs (incidences ++ [incidence]) := by
  apply List.rel_append
  · exact resolved.imp fun _ _ => Connects.addArc
  · exact .cons connects.addArc .nil

theorem inserts_assembled {incidence : Incidence}
    (resolved : List.Forall₂ net.Connects net.arcs incidences) : ∃ front back calls,
      net.Inserts (Emit.arcCall (net.named module) incidence)
        (unitText (Emit.implementation (net.named module) net.marking incidences))
        (unitText (Emit.implementation (net.named module) net.marking (incidences ++ [incidence])))
        front back calls := by
  have connected := calls_of_connections module resolved
  have before := Emit.toList_implementation (net.named module) net.marking incidences
  have after := Emit.toList_implementation (net.named module) net.marking (incidences ++ [incidence])
  rw [List.map_append, List.map_singleton, Emit.connectingLines_concat, ← List.append_assoc] at after
  generalize incidences.map (Emit.arcCall (net.named module)) = calls at connected before after
  refine ⟨Emit.frontLines (net.named module) net.marking calls, _, calls, connected, before, after,
    fun _ final => Emit.getLast?_frontLines_of_calls _ _ final, ?_, ?_, _, rfl⟩
  · intro arcless placed
    rw [arcless, List.forall₂_nil_left_iff] at connected
    rw [connected]
    exact Emit.getLast?_frontLines_of_marking _ (by simpa [marking] using placed)
  · intro arcless placeless
    rw [arcless, List.forall₂_nil_left_iff] at connected
    have unmarked : net.marking = [] := by simpa [marking] using placeless
    rw [connected, unmarked]
    exact Emit.getLast?_frontLines_nil _

end Assembled
end Net

/-- Modules of nets with the same names differ in the marking and in the calls that connect the arcs, if at all.
From a net with one more arc that is well formed the same module is generated but for the call of that arc,
which stands behind the others. -/
theorem artifacts_local (net : Net) (module respelled : String) (artifacts : Artifacts)
    (generated : generate net module = .ok artifacts)
    (spelled : Text.lowercaseAscii respelled.toList = Text.lowercaseAscii module.toList) :
    ∃ name, ModuleName.ofString? module = some name ∧
      (∀ other again, generate other respelled = .ok again →
        (∀ kind, (other.labels kind).map Text.uppercase = (net.labels kind).map Text.uppercase) →
        net.Resembles other (Emit.frame (net.named name)) artifacts again) ∧
      ∀ arc, net.WellFormedArc arc → ∃ call changed front back calls, net.Calls arc call ∧
        net.Inserts call artifacts.implementation changed front back calls ∧
        generate (net.addArc arc) respelled = .ok { artifacts with implementation := changed } := by
  obtain ⟨name, incidences, named, nameable, resolved, rfl⟩ := generate_eq_ok_iff.1 generated
  have renamed := ModuleName.ofString?_of_lowercase named spelled
  refine ⟨name, named, ?_, ?_⟩
  · intro other again regenerated names
    obtain ⟨rename, others, again, _, reresolved, rfl⟩ := generate_eq_ok_iff.1 regenerated
    obtain rfl : name = rename := Option.some.inj (renamed.symm.trans again)
    exact Net.resembles_assembled (Net.named_eq_of_names names name) resolved reresolved
  · intro arc wellFormed
    obtain ⟨incidence, connects⟩ := Net.exists_connects_iff.2 wellFormed
    obtain ⟨front, back, calls, inserts⟩ := Net.inserts_assembled resolved
    refine ⟨_, _, front, back, calls, connects.calls, inserts, ?_⟩
    exact generate_eq_ok_iff.2 ⟨name, _, renamed, nameable.of_named rfl,
      Net.connections_addArc resolved connects, rfl⟩

/-- The nodes of the net under other ids, in other letters and with another marking, without arcs. -/
def handoverUnconnected : Net where
  places := ⟨[⟨"a", "IDLE", 7⟩, ⟨"b", "Strasse", 0⟩], by decide⟩
  transitions := ⟨[⟨"c", "Start"⟩], by decide⟩
  arcs := []

theorem artifacts_local_handover : ∃ artifacts again changed,
    generate handover "Demo" = .ok artifacts ∧ generate handoverUnconnected "dEMO" = .ok again ∧
      again.interface = artifacts.interface ∧
      generate (handover.addArc ⟨"p0", "t0", "1"⟩) "dEMO" =
        .ok { artifacts with implementation := changed } := by
  obtain ⟨artifacts, generated⟩ := handover_generates
  obtain ⟨again, regenerated⟩ : ∃ again, generate handoverUnconnected "dEMO" = .ok again :=
    exists_ok_of_isOk (by decide +kernel)
  obtain ⟨name, _, resembles, inserts⟩ :=
    artifacts_local handover "Demo" "dEMO" artifacts generated (by decide)
  have names : ∀ kind, (handoverUnconnected.labels kind).map Text.uppercase =
      (handover.labels kind).map Text.uppercase := by
    intro kind
    cases kind <;> decide +kernel
  have connected : ∃ incidence, handover.Connects ⟨"p0", "t0", "1"⟩ incidence := by
    obtain ⟨incidence, resolved⟩ : ∃ incidence, handover.incidence ⟨"p0", "t0", "1"⟩ = .ok incidence :=
      exists_ok_of_isOk (by decide +kernel)
    exact ⟨incidence, Net.incidence_eq_ok_iff.1 resolved⟩
  obtain ⟨_, changed, _, _, _, _, _, added⟩ := inserts _ (Net.exists_connects_iff.1 connected)
  exact ⟨artifacts, again, changed, generated, regenerated,
    (resembles _ again regenerated names).interface, added⟩

end PetriCode
