import PetriCode.Naming.Register
import PetriCode.Proofs.Outcome
import PetriCode.Proofs.Text.Uppercase

/-! When the register takes every name of a net. One claim keeps the names apart, and so does any
run of claims: a run succeeds exactly when no node is without a name and the names taken before and
the names of the nodes are all different. -/
namespace PetriCode

namespace ModuleName

theorem upper_ofString {text : String} {name : ModuleName} (named : ofString? text = some name) :
    name.upper = String.ofList (Text.uppercaseAscii text.toList) := by
  simp only [ofString?, Option.dite_none_right_eq_some, Option.some.injEq] at named
  obtain ⟨_, rfl⟩ := named
  simp only [upper, Text.uppercaseAscii, Text.lowercaseAscii, List.map_map, Function.comp_def,
    Text.toUpper_toLower]

theorem ofString?_isSome_iff {text : String} :
    (∃ name, ofString? text = some name) ↔ C.isIdentifier text.toList := by
  simp [ofString?]

theorem count_ne (name : ModuleName) : name.count .place ≠ name.count .transition := by
  intro same
  have letters := congrArg String.toList same
  simp only [count, String.toList_append, List.append_cancel_left_eq] at letters
  exact absurd letters (by decide)

end ModuleName

def Node.claim (node : Node) : Claim := ⟨node.name, .node node.kind node.label⟩

namespace Register

def names (register : Register) : List String := register.map Claim.name

@[simp] theorem names_append (register others : Register) :
    names (register ++ others) = register.names ++ others.names := List.map_append

@[simp] theorem names_claims (nodes : List Node) :
    names (nodes.map Node.claim) = nodes.map Node.name := by
  simp [names, Node.claim]

theorem claim_eq_ok_iff {register next : Register} {node : Node} :
    register.claim node = .ok next ↔
      node.name ≠ "" ∧ node.name ∉ register.names ∧ next = register ++ [node.claim] := by
  unfold claim
  by_cases unnamed : node.name = ""
  · simp [unnamed]
  · simp only [if_neg unnamed]
    split
    case h_1 first taken =>
      have member : node.name ∈ register.names := by
        have same : first.name = node.name := by simpa using List.find?_some taken
        exact List.mem_map.2 ⟨first, List.mem_of_find?_eq_some taken, same⟩
      simp [member]
    case h_2 free =>
      have fresh : node.name ∉ register.names := by
        simpa [names, List.find?_eq_none] using free
      simp [unnamed, fresh, Node.claim, eq_comm]

/-- A run of claims takes the names of all nodes or fails. -/
theorem foldlM_claim_eq_ok_iff {nodes : List Node} {register last : Register}
    (distinct : register.names.Nodup) :
    nodes.foldlM claim register = .ok last ↔
      (∀ node ∈ nodes, node.name ≠ "") ∧ (register.names ++ nodes.map Node.name).Nodup ∧
        last = register ++ nodes.map Node.claim := by
  induction nodes generalizing register with
  | nil =>
    rw [List.foldlM_nil, List.map_nil, List.map_nil, List.append_nil, List.append_nil]
    simp [distinct, pure, Except.pure, eq_comm (a := last)]
  | cons node nodes ih =>
    rw [List.foldlM_cons, bind_eq_ok_iff]
    constructor
    · rintro ⟨next, claimed, rest⟩
      obtain ⟨named, fresh, rfl⟩ := claim_eq_ok_iff.1 claimed
      have apart : (register ++ [node.claim]).names.Nodup := by
        have both := (List.nodup_concat register.names node.name).2 ⟨fresh, distinct⟩
        simpa [List.concat_eq_append, names, Node.claim] using both
      obtain ⟨others, all, rfl⟩ := (ih apart).1 rest
      refine ⟨List.forall_mem_cons.2 ⟨named, others⟩, ?_, by simp⟩
      simpa [names, Node.claim] using all
    · rintro ⟨named, all, rfl⟩
      obtain ⟨first, others⟩ := List.forall_mem_cons.1 named
      rw [List.map_cons, ← List.singleton_append, ← List.append_assoc] at all
      have front := (List.nodup_append.1 all).1
      have fresh : node.name ∉ register.names := by
        rw [← List.concat_eq_append, List.nodup_concat] at front
        exact front.1
      have apart : names (register ++ [node.claim]) = register.names ++ [node.name] := by
        simp [names, Node.claim]
      refine ⟨_, claim_eq_ok_iff.2 ⟨first, fresh, rfl⟩, ?_⟩
      rw [ih (by rw [apart]; exact front), apart]
      exact ⟨others, all, by simp⟩

theorem names_reserved (module : ModuleName) :
    names (reserved module) = [module.count .place, module.count .transition] := rfl

theorem nodup_reserved (module : ModuleName) : (names (reserved module)).Nodup := by
  simp [names_reserved, module.count_ne]

end Register

namespace Net

def nodes (net : Net) : List Node :=
  net.places.entries.map Place.node ++ net.transitions.entries.map Transition.node

/-- The names of all nodes claimed one after the other. -/
def register (net : Net) (module : ModuleName) : Except NamingError Register :=
  net.nodes.foldlM Register.claim (.reserved module)

end Net
end PetriCode
