import Mathlib.Data.List.Induction
import PetriCode.Proofs.Net.Edits
import PetriCode.Proofs.Pnml.Loading

/-! What a net owes to the calls that built it. The entries of a roster are told by the calls alone: every key
that was used, in the order of first use, with what was last filed under it. The kinds of calls have
nothing to do with one another, so it does not matter how they are mixed. -/
namespace PetriCode

namespace Roster
variable {α : Type} {key : α → String} {calls : List α} {call entry : α}

/-- An entry is the last of some calls with its key. -/
def IsLatest (key : α → String) (calls : List α) (entry : α) : Prop :=
  ∃ before after, calls = before ++ entry :: after ∧ ∀ later ∈ after, key later ≠ key entry

/-- The latest entries under the keys of some calls, in the order in which the keys were first used. -/
structure Records (key : α → String) (calls entries : List α) : Prop where
  once : (entries.map key).Nodup
  used : ∀ k, k ∈ entries.map key ↔ k ∈ calls.map key
  ordered : (entries.map key).Pairwise fun one other =>
    (calls.map key).idxOf one < (calls.map key).idxOf other
  latest : ∀ entry ∈ entries, IsLatest key calls entry

/-- What a call after some others hands back: the entry whose place it takes, if its key has been used. -/
structure Answers (key : α → String) (calls : List α) (call : α) (answer : Option α) : Prop where
  replaced : ∀ old, answer = some old ↔ IsLatest key calls old ∧ key old = key call
  fresh : answer = none ↔ key call ∉ calls.map key

/-- Whatever is asked of a roster is answered from its entries, and these are what the calls left. That an entry
is filed under its own key holds of every roster, as no key is kept beside the entry it is read off; that of
several entries with the key the latest is found, and that it is found where the first one stood, does not. -/
structure Follows (roster : Roster key) (calls : List α) : Prop where
  records : Records key calls roster.entries
  filed : ∀ k entry, roster.find? k = some entry ↔ entry ∈ roster.entries ∧ key entry = k
  position : ∀ k index, roster.position? k = some index ↔
    ∃ entry, roster.entries[index]? = some entry ∧ key entry = k
  absent : ∀ k, roster.position? k = none ↔ k ∉ calls.map key
  answers : ∀ call, Answers key calls call (roster.put call).1

/-- The latest entries after one more call are that call and those that do not have its key. -/
theorem isLatest_append_iff : IsLatest key (calls ++ [call]) entry ↔
    entry = call ∨ key entry ≠ key call ∧ IsLatest key calls entry := by
  constructor
  · rintro ⟨before, after, split, others⟩
    obtain rfl | ⟨rest, last, rfl⟩ := List.eq_nil_or_concat after
    · exact .inl (List.singleton_inj.1 (List.append_inj_right' split rfl)).symm
    · rw [List.concat_eq_append] at split others
      rw [← List.cons_append, ← List.append_assoc] at split
      obtain ⟨rfl, only⟩ := List.append_inj' split rfl
      obtain rfl := List.singleton_inj.1 only
      exact .inr ⟨(others call (by simp)).symm, before, rest, rfl, fun later member =>
        others later (List.mem_append_left _ member)⟩
  · rintro (rfl | ⟨apart, before, after, rfl, others⟩)
    · exact ⟨calls, [], rfl, by simp⟩
    · refine ⟨before, after ++ [call], by simp, ?_⟩
      intro later member
      obtain old | new := List.mem_append.1 member
      · exact others later old
      · exact List.mem_singleton.1 new ▸ apart.symm

theorem IsLatest.mem (latest : IsLatest key calls entry) : entry ∈ calls := by
  obtain ⟨before, after, rfl, _⟩ := latest
  simp

theorem IsLatest.unique {other : α} (latest : IsLatest key calls entry)
    (again : IsLatest key calls other) (same : key entry = key other) : entry = other := by
  induction calls using List.reverseRecOn with
  | nil => cases latest.mem
  | append_singleton calls call ih =>
    obtain rfl | ⟨apart, latest⟩ := isLatest_append_iff.1 latest
    · obtain rfl | ⟨apart, _⟩ := isLatest_append_iff.1 again
      · rfl
      · exact absurd same.symm apart
    · obtain rfl | ⟨_, again⟩ := isLatest_append_iff.1 again
      · exact absurd same apart
      · exact ih latest again

namespace Records
variable {entries : List α}

theorem nil : Records key [] ([] : List α) :=
  ⟨List.Pairwise.nil, by simp, List.Pairwise.nil, by simp⟩

/-- Of calls that file something under a key one is the latest, and that is what is recorded. -/
theorem mem_iff (records : Records key calls entries) :
    entry ∈ entries ↔ IsLatest key calls entry := by
  constructor
  · exact records.latest entry
  · intro latest
    have used := (records.used (key entry)).2 (List.mem_map_of_mem latest.mem)
    obtain ⟨found, member, same⟩ := List.mem_map.1 used
    rwa [← (records.latest found member).unique latest same]

/-- The calls leave no choice of what is recorded. -/
theorem unique {others : List α} (records : Records key calls entries)
    (again : Records key calls others) : entries = others := by
  -- Both have the keys of the calls in the order of first use, so it is enough to compare entry by entry.
  have perm : (entries.map key).Perm (others.map key) := by
    rw [List.perm_ext_iff_of_nodup records.once again.once]
    intro k
    rw [records.used, again.used]
  have keys : entries.map key = others.map key :=
    perm.eq_of_pairwise (fun _ _ _ _ before after => absurd after before.asymm) records.ordered
      again.ordered
  have sizes : entries.length = others.length := by
    simpa using congrArg List.length keys
  refine List.ext_getElem sizes ?_
  intro index inside within
  have same : key entries[index] = key others[index] := by
    rw [← List.getElem_map key, ← List.getElem_map key]
    · exact List.getElem_of_eq keys _
    · simpa using inside
  exact (records.latest _ (List.getElem_mem inside)).unique
    (again.latest _ (List.getElem_mem within)) same

/-- A call with a key in use takes the place of the entry that has it. -/
theorem replaced (records : Records key calls entries) (known : key call ∈ entries.map key) :
    Records key (calls ++ [call]) (Roster.replaced key entries call) := by
  -- A key in use has been used before this call, so none is first used later than it was.
  have earlier : ∀ k ∈ entries.map key,
      ((calls ++ [call]).map key).idxOf k = (calls.map key).idxOf k := by
    intro k member
    rw [List.map_append, List.idxOf_append_of_mem ((records.used k).1 member)]
  refine ⟨?_, ?_, ?_, ?_⟩
  · rw [keys_replaced]
    exact records.once
  · intro k
    rw [keys_replaced, records.used, List.map_append, List.mem_append, List.map_singleton,
      List.mem_singleton]
    refine (or_iff_left_of_imp ?_).symm
    rintro rfl
    exact (records.used _).1 known
  · rw [keys_replaced]
    refine records.ordered.imp_of_mem ?_
    intro one other isOne isOther before
    rwa [earlier one isOne, earlier other isOther]
  · intro entry member
    obtain ⟨old, present, rfl⟩ := List.mem_map.1 member
    split_ifs with same
    · exact isLatest_append_iff.2 (.inl rfl)
    · exact isLatest_append_iff.2 (.inr ⟨same, records.latest old present⟩)

/-- A call with a new key comes behind all entries. -/
theorem appended (records : Records key calls entries) (new : key call ∉ entries.map key) :
    Records key (calls ++ [call]) (entries ++ [call]) := by
  have unused : key call ∉ calls.map key := fun used => new ((records.used _).2 used)
  have early : ∀ k ∈ entries.map key,
      ((calls ++ [call]).map key).idxOf k = (calls.map key).idxOf k ∧
        (calls.map key).idxOf k < calls.length := by
    intro k member
    have used := (records.used k).1 member
    rw [List.map_append, List.idxOf_append_of_mem used, ← List.length_map (f := key)]
    exact ⟨rfl, List.idxOf_lt_length_of_mem used⟩
  have last : ((calls ++ [call]).map key).idxOf (key call) = calls.length := by
    rw [List.map_append, List.idxOf_append_of_notMem unused]
    simp
  have keys : (entries ++ [call]).map key = entries.map key ++ [key call] := List.map_append
  refine ⟨nodup_append_key records.once new, ?_, ?_, ?_⟩
  · intro k
    rw [List.map_append, List.map_append, List.mem_append, List.mem_append, records.used]
  · rw [keys, List.pairwise_append]
    refine ⟨?_, List.pairwise_singleton _ _, ?_⟩
    · refine records.ordered.imp_of_mem ?_
      intro one other isOne isOther before
      rwa [(early one isOne).1, (early other isOther).1]
    · intro k member only isOnly
      rw [List.mem_singleton.1 isOnly, last, (early k member).1]
      exact (early k member).2
  · intro entry member
    obtain old | only := List.mem_append.1 member
    · have apart : key entry ≠ key call := fun same =>
        new (same ▸ List.mem_map_of_mem old)
      exact isLatest_append_iff.2 (.inr ⟨apart, records.latest entry old⟩)
    · exact isLatest_append_iff.2 (.inl (List.mem_singleton.1 only))

theorem insert {roster : Roster key} (records : Records key calls roster.entries) (call : α) :
    Records key (calls ++ [call]) (roster.insert call).entries := by
  unfold Roster.insert
  split_ifs with known
  · exact records.replaced known
  · exact records.appended known

theorem run {roster : Roster key} (records : Records key calls roster.entries) (more : List α) :
    Records key (calls ++ more) (more.foldl Roster.insert roster).entries := by
  induction more generalizing calls roster with
  | nil => rwa [List.append_nil]
  | cons call more ih =>
    rw [List.append_cons]
    exact ih (records.insert call)

end Records

/-- What a roster holds after some calls, and what it hands back to the next one, is told by the calls. -/
theorem Records.follows {roster : Roster key} (records : Records key calls roster.entries) :
    roster.Follows calls where
  records := records
  filed _ _ := find?_eq_some_iff
  position k index := by
    rw [position?_eq_some_iff, keys, List.getElem?_map, Option.map_eq_some_iff]
  absent k := by
    rw [position?_eq_none_iff, keys, records.used]
  answers call := by
    have replaced (old : α) : (roster.put call).1 = some old ↔
        IsLatest key calls old ∧ key old = key call := by
      rw [put, find?_eq_some_iff, records.mem_iff]
    refine ⟨replaced, ?_⟩
    rw [put, find?, List.find?_eq_none, ← records.used]
    simp

/-- After any calls on an empty roster it holds what they leave. -/
theorem follows_calls (key : α → String) (calls : List α) :
    (calls.foldl insert (empty : Roster key)).Follows calls := by
  have nothing : Records key [] (empty : Roster key).entries := .nil
  exact (nothing.run calls).follows

end Roster

namespace Net
variable {net other : Net} {edits others : List Edit}

/-- A net is what some calls on an empty one have to leave, and hands back to the next call what it has to. -/
structure Follows (net : Net) (edits : List Edit) : Prop where
  places : net.places.Follows (edits.filterMap Edit.place?)
  transitions : net.transitions.Follows (edits.filterMap Edit.transition?)
  arcs : net.arcs = edits.filterMap Edit.arc?
  size : net.size = (net.places.entries.length, net.transitions.entries.length, net.arcs.length)
  placeAnswers : ∀ place, Roster.Answers Place.id (edits.filterMap Edit.place?) place
    (net.addPlace place).1
  transitionAnswers : ∀ transition, Roster.Answers Transition.id (edits.filterMap Edit.transition?)
    transition (net.addTransition transition).1

/-- Each kind of calls makes its own part of a net. -/
theorem edited_eq (net : Net) (edits : List Edit) : net.edited edits =
    ⟨(edits.filterMap Edit.place?).foldl Roster.insert net.places,
      (edits.filterMap Edit.transition?).foldl Roster.insert net.transitions,
      net.arcs ++ edits.filterMap Edit.arc?⟩ := by
  induction edits generalizing net with
  | nil => simp [edited]
  | cons edit edits ih =>
    have next : net.edited (edit :: edits) = (edit.apply net).edited edits := rfl
    rw [next, ih]
    cases edit <;>
      simp [Edit.apply, Edit.place?, Edit.transition?, Edit.arc?, addPlace, addTransition, addArc,
        Roster.put, List.filterMap_cons]

theorem follows_edited (edits : List Edit) : (Net.empty.edited edits).Follows edits := by
  have places := Roster.follows_calls Place.id (edits.filterMap Edit.place?)
  have transitions := Roster.follows_calls Transition.id (edits.filterMap Edit.transition?)
  rw [edited_eq]
  exact {
    places
    transitions
    arcs := rfl
    size := rfl
    placeAnswers := places.answers
    transitionAnswers := transitions.answers }

/-- The calls of each kind leave no choice of the net. -/
theorem Follows.unique (follows : net.Follows edits) (again : other.Follows others)
    (places : edits.filterMap Edit.place? = others.filterMap Edit.place?)
    (transitions : edits.filterMap Edit.transition? = others.filterMap Edit.transition?)
    (arcs : edits.filterMap Edit.arc? = others.filterMap Edit.arc?) : net = other := by
  have samePlaces := (places ▸ follows.places.records).unique again.places.records
  have sameTransitions := (transitions ▸ follows.transitions.records).unique again.transitions.records
  rw [← contents_inj, contents, contents, samePlaces, sameTransitions, follows.arcs, again.arcs, arcs]

/-- After any calls a net is what they have to leave. So calls of the same places, the same transitions and the
same arcs, each kind in its order, build the same net however they are mixed. -/
theorem built_by_calls : (∀ edits : List Edit, (Net.empty.edited edits).Follows edits) ∧
    ∀ edits others : List Edit, edits.filterMap Edit.place? = others.filterMap Edit.place? →
      edits.filterMap Edit.transition? = others.filterMap Edit.transition? →
      edits.filterMap Edit.arc? = others.filterMap Edit.arc? →
      Net.empty.edited edits = Net.empty.edited others :=
  ⟨follows_edited, fun edits others => (follows_edited edits).unique (follows_edited others)⟩

/-- A place that is declared again between others keeps its position, and the transition of its id is none of it. -/
def refiled : List Edit := [.place ⟨"a", "idle", 1⟩, .transition ⟨"a", "go"⟩, .place ⟨"b", "busy", 0⟩,
  .arc ⟨"a", "a", "1"⟩, .place ⟨"a", "done", 2⟩]

def sorted : List Edit := [.place ⟨"a", "idle", 1⟩, .place ⟨"b", "busy", 0⟩, .place ⟨"a", "done", 2⟩,
  .transition ⟨"a", "go"⟩, .arc ⟨"a", "a", "1"⟩]

theorem built_by_calls_refiled : Net.empty.edited refiled = Net.empty.edited sorted ∧
    (Net.empty.edited refiled).contents =
      ⟨[⟨"a", "done", 2⟩, ⟨"b", "busy", 0⟩], [⟨"a", "go"⟩], [⟨"a", "a", "1"⟩]⟩ :=
  ⟨built_by_calls.2 refiled sorted rfl rfl rfl, rfl⟩

end Net
end PetriCode
