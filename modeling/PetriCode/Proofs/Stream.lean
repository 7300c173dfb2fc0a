import Mathlib.Data.List.DropRight
import PetriCode.Proofs.NormalForm
import PetriCode.Proofs.Rebuild

/-! The stream with both files of a module. It has no lengths and nothing is escaped in it, but each file
stands under a comment with its name, and no line of the interface is the comment of the implementation.
So the stream can be divided where that comment stands first, and all of the module is read from it. -/
namespace PetriCode
open C

/-- The lines of a text. What stands behind its last line end is one of them, be it empty. -/
def linesOf (text : String) : List String := (text.toList.splitOn '\n').map String.ofList

theorem joined_linesOf (text : String) : joined (linesOf text) = text := by
  have texts : String.toList ∘ String.ofList = id := funext fun _ => String.toList_ofList
  have lineEnd : "\n".toList = ['\n'] := rfl
  rw [← String.toList_inj, joined, String.toList_intercalate, linesOf, List.map_map, texts, List.map_id,
    lineEnd, List.intercalate_splitOn]

theorem linesOf_append (front back : String) :
    linesOf (front ++ "\n" ++ back) = linesOf front ++ linesOf back := by
  have lineEnd : "\n".toList = ['\n'] := rfl
  rw [linesOf, String.toList_append, String.toList_append, lineEnd, List.append_assoc,
    List.singleton_append, List.splitOn_append_cons_self, List.map_append, ← linesOf, ← linesOf]

theorem linesOf_line {line : String} (single : '\n' ∉ line.toList) : linesOf line = [line] := by
  rw [linesOf, List.splitOn_eq_singleton single, List.map_singleton, String.ofList_toList]

theorem linesOf_joined {lines : List String} (inhabited : lines ≠ [])
    (single : ∀ line ∈ lines, '\n' ∉ line.toList) : linesOf (joined lines) = lines := by
  induction lines with
  | nil => exact absurd rfl inhabited
  | cons line lines ih =>
    obtain ⟨first, others⟩ := List.forall_mem_cons.1 single
    cases lines with
    | nil => rw [joined, String.intercalate_singleton, linesOf_line first]
    | cons next lines =>
      have split : joined (line :: next :: lines) = line ++ "\n" ++ joined (next :: lines) :=
        String.intercalate_cons_of_ne_nil (by simp)
      rw [split, linesOf_append, linesOf_line first, ih (by simp) others, List.singleton_append]

/-- The line under which a file stands. -/
def caption (file : String) : String := "/* " ++ file ++ " */"

theorem linesOf_caption {file : String} (single : '\n' ∉ file.toList) :
    linesOf (caption file) = [caption file] :=
  linesOf_line (by simp [caption, single])

/-- The name of the module in a line under which its interface stands. -/
def captionedModule (line : String) : String := String.ofList ((line.toList.drop 3).rdrop 5)

theorem captionedModule_caption (module : String) :
    captionedModule (caption (module ++ ".h")) = module := by
  have ending : ".h */".toList.length = 5 := rfl
  have behind : (caption (module ++ ".h")).toList.drop 3 = module.toList ++ ".h */".toList := by
    simp [caption]
  rw [captionedModule, behind, ← ending, List.rdrop_append_length, String.ofList_toList]

/-- The lines before the first line of some text and those behind it. -/
def divided (title : String) (lines : List String) : List String × List String :=
  (lines.takeWhile (· ≠ title), (lines.dropWhile (· ≠ title)).tail)

theorem divided_eq {title : String} {front : List String} (absent : title ∉ front)
    (back : List String) : divided title (front ++ title :: back) = (front, back) := by
  have passed : ∀ line ∈ front, decide (line ≠ title) := by
    intro line member
    rw [decide_eq_true_eq]
    rintro rfl
    exact absent member
  rw [divided, List.takeWhile_append_of_pos passed, List.dropWhile_append_of_pos passed]
  simp

namespace Artifacts

/-- How a stream is divided: the line under which the interface stands, the lines of the interface, an empty
line, the first line under which an implementation stands, and the lines of the implementation. -/
structure Divides (artifacts : Artifacts) (module : String) (between behind : List String) : Prop where
  interfaceFile : artifacts.interfaceFile = module ++ ".h"
  implementationFile : artifacts.implementationFile = module ++ ".c"
  lines : linesOf artifacts.text = caption (module ++ ".h") :: between ++
    "" :: caption (module ++ ".c") :: behind
  first : caption (module ++ ".c") ∉ between ++ [""]
  interface : artifacts.interface.toList = laid between
  implementation : artifacts.implementation = joined behind

/-- Reads a module from the stream with its two files. -/
def ofText? (stream : String) : Option Artifacts := do
  let first :: rest := linesOf stream | none
  let module ← ModuleName.ofString? (captionedModule first)
  let (between, behind) := divided (caption module.implementationFile) rest
  let [places, transitions] := Outline.enumerations (← read (joined between)) | none
  let naming : Naming := ⟨module, places.dropLast, transitions.dropLast⟩
  return ⟨module.interfaceFile, module.implementationFile, joined between, joined behind,
    naming.table .place, naming.table .transition⟩

end Artifacts

section Interface

/-- A line that is no comment. -/
structure Uncommented (line : String) : Prop where
  single : '\n' ∉ line.toList
  begins : line.toList.head? ≠ some '/'

variable {naming : Naming}

theorem uncommented_enumeration (identified : naming.Identified) (kind : NodeKind) :
    ∀ line ∈ (Emit.enumeration naming kind).lines, Uncommented line := by
  have tag := (naming.module.isName_enumeration kind).not_mem (c := '\n') (by decide)
  have count := (naming.module.isName_count kind).not_mem (c := '\n') (by decide)
  intro line member
  simp only [Emit.enumeration, Declaration.lines, List.mem_append, List.mem_map,
    List.mem_cons, List.not_mem_nil, or_false] at member
  obtain (rfl | ⟨name, listed, rfl⟩) | rfl | rfl := member
  · exact ⟨by simp [tag], by simp⟩
  · have single := (identified kind name listed).not_mem (c := '\n') (by decide)
    exact ⟨by simp [single], by simp⟩
  · exact ⟨by simpa [Naming.count] using count, by simp⟩
  · exact ⟨by decide, by decide⟩

theorem uncommented_heads (module : ModuleName) :
    ∀ head ∈ Emit.heads module, Uncommented (head.text ++ ";") := by
  have single : '\n' ∉ module.lower.toList := module.not_mem_lower (by decide)
  intro head member
  simp only [Emit.heads, NodeKind.all, List.map_cons, List.map_nil, List.cons_append, List.nil_append,
    List.mem_cons, List.not_mem_nil, or_false] at member
  obtain rfl | rfl | rfl | rfl | rfl := member <;>
    constructor <;>
    simp [Emit.constructorHead, Emit.textHead, Emit.positionHead, Prototype.text, TypeName.declare,
      Variable.text, single]

/-- A line that is passed over in search of the line under which the implementation stands. -/
structure IsPassed (module : ModuleName) (line : String) : Prop where
  single : '\n' ∉ line.toList
  other : line ≠ caption (module.lower ++ ".c")

theorem Uncommented.isPassed {module : ModuleName} {line : String} (plain : Uncommented line) :
    IsPassed module line where
  single := plain.single
  other := by
    rintro rfl
    exact plain.begins (by simp [caption])

theorem isPassed_banner (module : ModuleName) :
    ∀ line ∈ (Emit.banner module).lines, IsPassed module line := by
  have single : '\n' ∉ module.lower.toList := module.not_mem_lower (by decide)
  intro line member
  obtain rfl := List.mem_singleton.1 member
  refine ⟨by simp [single], ?_⟩
  -- Both lines are comments, but the banner is the longer one whatever the name is.
  intro same
  have lengths := congrArg (List.length ∘ String.toList) same
  simp [caption] at lengths
  omega

theorem isPassed_interface (identified : naming.Identified) :
    ∀ line ∈ unitLines (Emit.interface naming), IsPassed naming.module line := by
  intro line member
  obtain rfl | ⟨_, listed, inside⟩ := mem_spaced member
  · exact Uncommented.isPassed ⟨by decide, by decide⟩
  obtain ⟨paragraph, among, rfl⟩ := List.mem_map.1 listed
  obtain ⟨declaration, present, here⟩ := List.mem_flatMap.1 inside
  simp only [Emit.interface, List.mem_append, List.mem_cons, List.not_mem_nil, or_false, List.mem_map,
    or_assoc] at among
  obtain rfl | rfl | ⟨kind, _, rfl⟩ | rfl := among
  · obtain rfl | rfl := List.mem_pair.1 present
    · exact isPassed_banner naming.module line here
    · obtain rfl := List.mem_singleton.1 here
      exact Uncommented.isPassed ⟨by decide, by decide⟩
  · obtain rfl := List.mem_singleton.1 present
    obtain rfl := List.mem_singleton.1 here
    exact Uncommented.isPassed ⟨by decide, by decide⟩
  · obtain rfl := List.mem_singleton.1 present
    exact (uncommented_enumeration identified kind line here).isPassed
  · obtain ⟨head, declared, rfl⟩ := List.mem_map.1 present
    obtain rfl := List.mem_singleton.1 here
    exact (uncommented_heads naming.module head declared).isPassed

end Interface

section Assembled
variable {naming : Naming} (identified : naming.Identified) (marking : List Weight)
  (incidences : List Incidence)
include identified

theorem linesOf_interface :
    linesOf (unitText (Emit.interface naming)) = unitLines (Emit.interface naming) ++ [""] := by
  have inhabited : unitLines (Emit.interface naming) ≠ [] := by
    rw [Emit.interface_parts]
    exact (ends_unit _ _ _).1
  have text : unitText (Emit.interface naming) =
      joined (unitLines (Emit.interface naming)) ++ "\n" ++ "" := by
    rw [String.append_empty, Emit.interface_parts]
    exact unitText_eq_joined _
  have single := fun line member => (isPassed_interface identified line member).single
  rw [text, linesOf_append, linesOf_joined inhabited single, linesOf_line (by simp)]

theorem divides_assembled :
    (Artifacts.assemble naming marking incidences).Divides naming.module.lower
      (unitLines (Emit.interface naming)) (linesOf (unitText (Emit.implementation naming marking incidences)))
      where
  interfaceFile := rfl
  implementationFile := rfl
  lines := by
    have lower : '\n' ∉ naming.module.lower.toList := naming.module.not_mem_lower (by decide)
    have text : (Artifacts.assemble naming marking incidences).text =
        caption (naming.module.lower ++ ".h") ++ "\n" ++ (unitText (Emit.interface naming) ++ "\n" ++
          (caption (naming.module.lower ++ ".c") ++ "\n" ++
            unitText (Emit.implementation naming marking incidences))) := by
      simp [Artifacts.text, Artifacts.assemble, caption, ModuleName.interfaceFile,
        ModuleName.implementationFile, ← String.toList_inj]
    rw [text, linesOf_append, linesOf_append, linesOf_append, linesOf_caption (by simp [lower]),
      linesOf_caption (by simp [lower]), linesOf_interface identified]
    simp
  first := by
    rw [List.mem_append, not_or]
    exact ⟨fun member => (isPassed_interface identified _ member).other rfl,
      by simp [caption, ← String.toList_inj]⟩
  interface := Emit.interface_laid naming
  implementation := (joined_linesOf _).symm

theorem ofText?_assembled (named : ModuleName.ofString? naming.module.lower = some naming.module) :
    Artifacts.ofText? (Artifacts.assemble naming marking incidences).text =
      some (Artifacts.assemble naming marking incidences) := by
  have divides := divides_assembled identified marking incidences
  have bodies := divided_eq divides.first (linesOf (unitText (Emit.implementation naming marking incidences)))
  have interface : joined (unitLines (Emit.interface naming) ++ [""]) =
      unitText (Emit.interface naming) := by
    rw [← linesOf_interface identified, joined_linesOf]
  rw [List.append_assoc, List.singleton_append] at bodies
  rw [Artifacts.ofText?, divides.lines, List.cons_append]
  simp only [captionedModule_caption, named, Option.bind_eq_bind, Option.bind_some,
    ModuleName.implementationFile, bodies, interface, Emit.read_interface naming identified,
    enumerations_interface, joined_linesOf]
  simp [Naming.enumerations, Naming.constants, NodeKind.all, Artifacts.assemble, Naming.table,
    Naming.names, Naming.count, ModuleName.implementationFile]

end Assembled

theorem ModuleName.ofString?_lower {text : String} {name : ModuleName}
    (named : ofString? text = some name) : ofString? name.lower = some name := by
  refine ofString?_of_lowercase named ?_
  simp only [ofString?, Option.dite_none_right_eq_some, Option.some.injEq] at named
  obtain ⟨_, rfl⟩ := named
  rw [lower, String.toList_ofList, Text.lowercaseAscii_lowercaseAscii]

/-- The stream of a net whose names are words is divided in one way, all of the module is read from it, and no
other module has it. -/
theorem stream_read_back (net : Net) (module : String) (artifacts : Artifacts)
    (generated : generate net module = .ok artifacts) (words : net.HasWords) :
    (∃ name between behind, ModuleName.ofString? module = some name ∧
      artifacts.Divides name.lower between behind) ∧
    Artifacts.ofText? artifacts.text = some artifacts ∧
    ∀ (other : Net) (otherModule : String) (again : Artifacts),
      generate other otherModule = .ok again → other.HasWords →
      again.text = artifacts.text → again = artifacts := by
  have readBack {net : Net} {module : String} {artifacts : Artifacts}
      (generated : generate net module = .ok artifacts) (words : net.HasWords) :
      Artifacts.ofText? artifacts.text = some artifacts := by
    obtain ⟨name, incidences, named, _, _, rfl⟩ := generate_eq_ok_iff.1 generated
    exact ofText?_assembled (words.identified name) _ _ (ModuleName.ofString?_lower named)
  refine ⟨?_, readBack generated words, ?_⟩
  · obtain ⟨name, incidences, named, _, _, rfl⟩ := generate_eq_ok_iff.1 generated
    exact ⟨name, _, _, named, divides_assembled (words.identified name) _ _⟩
  · intro other otherModule again regenerated rewords same
    have first := readBack generated words
    rw [← same, readBack regenerated rewords] at first
    exact Option.some.inj first

theorem stream_read_back_handover : handover.HasWords ∧ ∃ artifacts,
    generate handover "Demo" = .ok artifacts ∧
      (linesOf artifacts.text).head? = some "/* demo.h */" ∧
      Artifacts.ofText? artifacts.text = some artifacts := by
  obtain ⟨artifacts, generated⟩ := handover_generates
  obtain ⟨⟨name, between, behind, named, divides⟩, readBack, _⟩ :=
    stream_read_back handover "Demo" artifacts generated handover_hasWords
  obtain rfl : name = ⟨"demo".toList, by decide⟩ := by
    rw [ModuleName.ofString?, dif_pos (by decide)] at named
    exact (Option.some.inj named).symm
  exact ⟨handover_hasWords, artifacts, generated, by rw [divides.lines]; rfl, readBack⟩

end PetriCode
