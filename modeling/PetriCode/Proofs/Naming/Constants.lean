import PetriCode.Proofs.Naming.Tables

/-! The values of enumeration constants. Constants are numbered by their position, and a name stands for
the first constant of that name. As all constants of a module are different, each name of a node
stands for the position of the node, and each count constant for the number of nodes. -/
namespace PetriCode

/-- The value of a constant in some enumerations. -/
def constant? (enumerations : List (List String)) (name : String) : Option Nat :=
  enumerations.findSome? fun constants => constants.idxOf? name

theorem idxOf?_eq_some_of_nodup {names : List String} (distinct : names.Nodup) {index : Nat}
    {name : String} (listed : names[index]? = some name) : names.idxOf? name = some index := by
  obtain ⟨bound, same⟩ := List.getElem?_eq_some_iff.1 listed
  rw [List.idxOf?_eq_some_iff]
  refine ⟨bound, same, ?_⟩
  intro earlier before again
  have equal := (List.Nodup.getElem_inj_iff distinct).1 (again.trans same.symm)
  omega

theorem constant?_eq_some {enumerations : List (List String)}
    (distinct : enumerations.flatten.Nodup) {constants : List String}
    (member : constants ∈ enumerations) {index : Nat} {name : String}
    (listed : constants[index]? = some name) : constant? enumerations name = some index := by
  unfold constant?
  induction enumerations with
  | nil => simp at member
  | cons first others ih =>
    rw [List.flatten_cons, List.nodup_append] at distinct
    obtain ⟨firstDistinct, othersDistinct, apart⟩ := distinct
    rw [List.findSome?_cons]
    obtain rfl | behind := List.mem_cons.1 member
    -- A name that stands in a later list stands in none before it.
    · rw [idxOf?_eq_some_of_nodup firstDistinct listed]
    · have absent : name ∉ first := by
        intro present
        exact apart name present name
          (List.mem_flatten.2 ⟨constants, behind, List.mem_of_getElem? listed⟩) rfl
      rw [List.idxOf?_eq_none_iff.2 absent]
      exact ih othersDistinct behind

theorem NodeKind.mem_all (kind : NodeKind) : kind ∈ NodeKind.all := by
  cases kind <;> decide

namespace Naming

def constants (naming : Naming) (kind : NodeKind) : List String :=
  naming.names kind ++ [naming.count kind]

def enumerations (naming : Naming) : List (List String) := NodeKind.all.map naming.constants

theorem mem_enumerations {naming : Naming} {name : String} :
    name ∈ naming.enumerations.flatten ↔ ∃ kind, name ∈ naming.constants kind := by
  rw [enumerations, ← List.flatMap_def, List.mem_flatMap]
  simp only [NodeKind.mem_all, true_and]

end Naming

namespace Net.Nameable
variable {net : Net} {module : ModuleName} (nameable : net.Nameable module)
include nameable

theorem nodup_enumerations : (net.named module).enumerations.flatten.Nodup := by
  have distinct := nameable.distinct
  rw [claimedNames, ← names_named] at distinct
  have moved : (net.named module).enumerations.flatten.Perm
      (module.count .place :: (net.named module).places ++
        module.count .transition :: (net.named module).transitions) := by
    simp only [Naming.enumerations, NodeKind.all, List.map_cons, List.map_nil, List.flatten_cons,
      List.flatten_nil, List.append_nil]
    exact (List.perm_append_singleton _ _).append (List.perm_append_singleton _ _)
  have gathered := moved.trans (List.Perm.cons _ List.perm_middle)
  exact gathered.nodup_iff.2 distinct

theorem constant?_name {kind : NodeKind} {index : Nat} {name : String}
    (listed : ((net.named module).names kind)[index]? = some name) :
    constant? (net.named module).enumerations name = some index := by
  apply constant?_eq_some nameable.nodup_enumerations (List.mem_map_of_mem kind.mem_all)
  obtain ⟨bound, _⟩ := List.getElem?_eq_some_iff.1 listed
  rw [Naming.constants, List.getElem?_append_left bound, listed]

theorem constant?_count (kind : NodeKind) :
    constant? (net.named module).enumerations ((net.named module).count kind) =
      some ((net.named module).names kind).length := by
  apply constant?_eq_some nameable.nodup_enumerations (List.mem_map_of_mem kind.mem_all)
  simp [Naming.constants]

end Net.Nameable
end PetriCode
