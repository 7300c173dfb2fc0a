import Mathlib.Data.List.Basic
import PetriCode.Net.Roster
import PetriCode.Proofs.Outcome

/-! What is found in a roster, and what an entry that is filed does to it. An entry with a new key comes behind all
others; any other entry moves no key. -/
namespace PetriCode.Roster
variable {α : Type} {key : α → String} {roster next : Roster key} {entry : α}

theorem entries_inj {other : Roster key} : roster.entries = other.entries ↔ roster = other := by
  cases roster
  cases other
  rw [mk.injEq]

section Found
variable (roster)

theorem eq_of_key {first second : α} (one : first ∈ roster.entries) (other : second ∈ roster.entries)
    (same : key first = key second) : first = second :=
  List.inj_on_of_nodup_map roster.distinct one other same

theorem position?_eq_some_iff {k : String} {position : Nat} :
    roster.position? k = some position ↔ roster.keys[position]? = some k := by
  unfold position? keys
  rw [List.findIdx?_eq_some_iff_getElem, List.getElem?_eq_some_iff]
  constructor
  · rintro ⟨bound, filed, _⟩
    exact ⟨by simpa using bound, by simpa using filed⟩
  · rintro ⟨bound, filed⟩
    refine ⟨by simpa using bound, by simpa using filed, ?_⟩
    intro earlier before again
    have within : earlier < (roster.entries.map key).length := by omega
    have same : (roster.entries.map key)[earlier] = k := by simpa using again
    have index := (List.Nodup.getElem_inj_iff roster.distinct).1 (same.trans filed.symm)
    omega

theorem position?_eq_none_iff {k : String} : roster.position? k = none ↔ k ∉ roster.keys := by
  simp [position?, keys, List.findIdx?_eq_none_iff]

end Found

theorem find?_eq_some_iff {k : String} :
    roster.find? k = some entry ↔ entry ∈ roster.entries ∧ key entry = k :=
  find?_key_iff roster.distinct

theorem find?_eq_none_iff {k : String} : roster.find? k = none ↔ k ∉ roster.keys := by
  simp [find?, keys]

theorem exists_entry {position : Nat} {k : String} (filed : roster.keys[position]? = some k) :
    ∃ entry, roster.entries[position]? = some entry ∧ key entry = k := by
  rwa [keys, List.getElem?_map, Option.map_eq_some_iff] at filed

theorem entries_insert_of_fresh (fresh : key entry ∉ roster.keys) :
    (roster.insert entry).entries = roster.entries ++ [entry] := by
  rw [keys] at fresh
  rw [insert, dif_neg fresh]

/-- An entry is filed without taking the place of another just if it comes behind all others. -/
theorem put_eq_none_iff :
    roster.put entry = (none, next) ↔ next.entries = roster.entries ++ [entry] := by
  rw [put, Prod.mk.injEq, find?_eq_none_iff]
  constructor
  · rintro ⟨unused, rfl⟩
    exact entries_insert_of_fresh unused
  · intro behind
    have distinct := next.distinct
    rw [behind, List.map_append, List.nodup_append] at distinct
    have unused : key entry ∉ roster.keys := fun used => distinct.2.2 _ used _ (by simp) rfl
    exact ⟨unused, entries_inj.1 ((entries_insert_of_fresh unused).trans behind.symm)⟩

section Insert
variable (roster) (entry)

/-- A key in use stays where it is, and a new one comes last. -/
theorem keys_insert : (roster.insert entry).keys =
    if key entry ∈ roster.keys then roster.keys else roster.keys ++ [key entry] := by
  unfold insert keys
  split_ifs with used
  · exact keys_replaced roster.entries entry
  · rw [List.map_append, List.map_singleton]

theorem keys_isPrefix_insert : roster.keys <+: (roster.insert entry).keys := by
  rw [keys_insert]
  split_ifs
  · exact List.prefix_rfl
  · exact List.prefix_append _ _

end Insert

end PetriCode.Roster
