import PetriCode.Proofs.Text.Uppercase

/-! Upper case a second time. No image in the table of cases has a row of its own: what a run of cases
leads to lies outside every run or between two of its members, and so does what an expansion leads
to. Hence a text in upper case is its own upper case. -/
namespace PetriCode.Text

/-- Whether no image of a run is a member of another run: the images lie on one side of it or between
its members. -/
def CaseRun.misses (run other : CaseRun) : Bool :=
  other.last.blt run.image || (run.image + (run.last - run.first)).blt other.first ||
    (other.step.beq 2 && (run.step.beq 2 || run.first.beq run.last) &&
      ((run.image + other.first) % 2).beq 1)

/-- The run of a code point that is its own upper case. -/
def CaseRun.point (code : Nat) : CaseRun := ⟨code, code, 1, code⟩

theorem not_covers_apply {run other : CaseRun} (misses : run.misses other) {code : Nat}
    (covered : run.covers code) : ¬ other.covers (run.apply code) := by
  simp only [CaseRun.misses, Bool.or_eq_true, Bool.and_eq_true, Nat.blt_eq, Nat.beq_eq] at misses
  simp only [CaseRun.covers, Bool.and_eq_true, decide_eq_true_eq, beq_iff_eq] at covered
  intro again
  simp only [CaseRun.covers, Bool.and_eq_true, decide_eq_true_eq, beq_iff_eq] at again
  rw [CaseRun.apply] at again
  obtain ((behind | before) | ⟨⟨otherStep, between⟩, odd⟩) := misses
  · omega
  · omega
  · rw [otherStep] at again
    obtain step | single := between
    · rw [step] at covered
      omega
    · omega

theorem caseRuns_miss : ∀ run ∈ caseRuns, caseRuns.all run.misses := by decide +kernel

theorem caseRuns_unexpanded : ∀ run ∈ caseRuns, caseExpansions.all fun row =>
    row.1.blt run.image || (run.image + (run.last - run.first)).blt row.1 := by decide +kernel

theorem caseExpansions_miss : ∀ row ∈ caseExpansions, ∀ code ∈ row.2,
    caseRuns.all (CaseRun.point code).misses := by decide +kernel

theorem caseExpansions_unexpanded : ∀ row ∈ caseExpansions, ∀ code ∈ row.2,
    caseExpansions.all fun other => other.1 != code := by decide +kernel

/-- A code point that no row of the table changes. -/
structure IsCapital (code : Nat) : Prop where
  uncovered : ∀ run ∈ caseRuns, ¬ run.covers code
  unexpanded : caseExpansions.lookup code = none

theorem lookup_eq_none_of_ne {code : Nat} (absent : ∀ row ∈ caseExpansions, row.1 ≠ code) :
    caseExpansions.lookup code = none := by
  rw [List.lookup_eq_none_iff]
  intro row member
  exact bne_iff_ne.2 (absent row member).symm

theorem isCapital_apply {run : CaseRun} (member : run ∈ caseRuns) {code : Nat}
    (covered : run.covers code) : IsCapital (run.apply code) where
  uncovered := fun other listed =>
    not_covers_apply (List.all_eq_true.1 (caseRuns_miss run member) other listed) covered
  unexpanded := by
    apply lookup_eq_none_of_ne
    intro row listed same
    have apart := List.all_eq_true.1 (caseRuns_unexpanded run member) row listed
    simp only [Bool.or_eq_true, Nat.blt_eq] at apart
    simp only [CaseRun.covers, Bool.and_eq_true, decide_eq_true_eq] at covered
    simp only [CaseRun.apply] at same
    omega

theorem isCapital_expansion {row : Nat × List Nat} (member : row ∈ caseExpansions) {code : Nat}
    (image : code ∈ row.2) : IsCapital code where
  uncovered := by
    intro other listed
    have misses := List.all_eq_true.1 (caseExpansions_miss row member code image) other listed
    have itself : (CaseRun.point code).covers code := by simp [CaseRun.point, CaseRun.covers]
    have apart := not_covers_apply misses itself
    rwa [CaseRun.apply, CaseRun.point, Nat.sub_self] at apart
  unexpanded := by
    apply lookup_eq_none_of_ne
    intro other listed
    simpa using List.all_eq_true.1 (caseExpansions_unexpanded row member code image) other listed

theorem upperCodes_of_isCapital {code : Nat} (capital : IsCapital code) :
    upperCodes code = [code] := by
  have uncovered : caseRuns.find? (·.covers code) = none :=
    List.find?_eq_none.2 capital.uncovered
  simp [upperCodes, uncovered, capital.unexpanded]

/-- Nothing in an upper case has another upper case. -/
theorem isCapital_of_mem_upperCodes {code image : Nat} (member : image ∈ upperCodes code) :
    IsCapital image := by
  unfold upperCodes at member
  split at member
  case h_1 run found =>
    obtain rfl := List.mem_singleton.1 member
    have covered := List.find?_some found
    exact isCapital_apply (List.mem_of_find?_eq_some found) covered
  case h_2 uncovered =>
    cases expansion : caseExpansions.lookup code with
    | some images =>
      rw [expansion] at member
      exact isCapital_expansion (mem_of_lookup expansion) member
    | none =>
      rw [expansion] at member
      obtain rfl := List.mem_singleton.1 member
      exact ⟨by simpa using uncovered, expansion⟩

theorem upperChar_of_mem_upperChar {c image : Char} (member : image ∈ upperChar c) :
    upperChar image = [image] := by
  have settled : upperCodes image.toNat = [image.toNat] := by
    obtain ⟨code, found, rfl⟩ := List.mem_map.1 member
    have valid : code.isValidChar := by
      obtain upper | ⟨rfl, _⟩ := mem_upperCodes found
      · exact upper.2.2
      · exact c.valid
    rw [toNat_ofNat valid]
    exact upperCodes_of_isCapital (isCapital_of_mem_upperCodes found)
  rw [upperChar, settled, List.map_singleton, Char.ofNat_toNat]

theorem uppercase_uppercase (text : String) : uppercase (uppercase text) = uppercase text := by
  have settled : ∀ image ∈ text.toList.flatMap upperChar, upperChar image = [image] := by
    intro image member
    obtain ⟨c, _, found⟩ := List.mem_flatMap.1 member
    exact upperChar_of_mem_upperChar found
  have again : (text.toList.flatMap upperChar).flatMap upperChar =
      (text.toList.flatMap upperChar).flatMap fun image => [image] :=
    List.flatMap_congr settled
  rw [uppercase, uppercase, String.toList_ofList, again, List.flatMap_singleton']

end PetriCode.Text
