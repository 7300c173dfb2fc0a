import Mathlib.Data.List.Forall2
import Mathlib.Data.List.Nodup
import Mathlib.Logic.Basic

/-! Outcomes of steps that may fail, and of passes over lists that are made of such steps: what it means that
they succeed, at which item they fail, and what they have in common with passes over other items. -/
namespace PetriCode

section Steps
variable {ε ε' α β : Type} {f : ε → ε'}

theorem bind_eq_ok_iff {first : Except ε α} {next : α → Except ε β} {result : β} :
    (first >>= next) = .ok result ↔ ∃ value, first = .ok value ∧ next value = .ok result := by
  cases first with
  | error fault => simp [bind, Except.bind]
  | ok value => simp [bind, Except.bind]

theorem bind_eq_error_iff {first : Except ε α} {next : α → Except ε β} {fault : ε} :
    first >>= next = .error fault ↔
      first = .error fault ∨ ∃ value, first = .ok value ∧ next value = .error fault := by
  cases first with
  | error other => simp [bind, Except.bind]
  | ok value => simp [bind, Except.bind]

theorem exists_ok_of_isOk {outcome : Except ε α} (succeeds : outcome.isOk) :
    ∃ value, outcome = .ok value := by
  cases outcome with
  | error fault => cases succeeds
  | ok value => exact ⟨value, rfl⟩

theorem map_eq_ok_iff {outcome : Except ε α} {change : α → β} {result : β} :
    change <$> outcome = .ok result ↔ ∃ value, outcome = .ok value ∧ change value = result := by
  cases outcome <;> simp [Functor.map, Except.map]

theorem map_eq_error_iff {outcome : Except ε α} {change : α → β} {fault : ε} :
    change <$> outcome = .error fault ↔ outcome = .error fault := by
  cases outcome <;> simp [Functor.map, Except.map]

theorem mapError_eq_ok_iff {outcome : Except ε α} {value : α} :
    outcome.mapError f = .ok value ↔ outcome = .ok value := by
  cases outcome <;> simp [Except.mapError]

theorem mapError_eq_error_iff {outcome : Except ε α} {fault : ε'} :
    outcome.mapError f = .error fault ↔ ∃ cause, outcome = .error cause ∧ f cause = fault := by
  cases outcome <;> simp [Except.mapError]

theorem mapError_bind (first : Except ε α) (next : α → Except ε β) :
    (first >>= next).mapError f = first.mapError f >>= fun value => (next value).mapError f := by
  cases first <;> rfl

theorem mapError_mapError {ε'' : Type} (outcome : Except ε α) (g : ε' → ε'') :
    (outcome.mapError f).mapError g = outcome.mapError (g ∘ f) := by
  cases outcome <;> rfl

end Steps

section Related
variable {α β γ : Type} {related : α → β → Prop} {items : List α} {results : List β}

theorem exists_forall₂_iff :
    (∃ results, List.Forall₂ related items results) ↔ ∀ item ∈ items, ∃ result, related item result := by
  induction items with
  | nil => simp
  | cons item items ih =>
    rw [List.forall_mem_cons, ← ih]
    constructor
    · rintro ⟨_, one | ⟨head, tail⟩⟩
      exact ⟨⟨_, head⟩, _, tail⟩
    · rintro ⟨⟨result, head⟩, results, tail⟩
      exact ⟨result :: results, .cons head tail⟩

theorem forall₂_append_iff {front back : List α} {found : List β} :
    List.Forall₂ related (front ++ back) found ↔ ∃ one other, List.Forall₂ related front one ∧
      List.Forall₂ related back other ∧ found = one ++ other := by
  constructor
  · intro all
    have early := List.forall₂_take front.length all
    have late := List.forall₂_drop front.length all
    rw [List.take_left] at early
    rw [List.drop_left] at late
    exact ⟨_, _, early, late, (List.take_append_drop _ found).symm⟩
  · rintro ⟨one, other, early, late, rfl⟩
    exact List.rel_append early late

theorem exists_of_forall₂ (all : List.Forall₂ related items results) {index : Nat} {item : α}
    (listed : items[index]? = some item) :
    ∃ result, results[index]? = some result ∧ related item result := by
  induction all generalizing index with
  | nil => simp at listed
  | @cons first result _ _ holds _ ih =>
    cases index with
    | zero =>
      obtain rfl : first = item := by simpa using listed
      exact ⟨result, by simp, holds⟩
    | succ index => simpa using ih (by simpa using listed)

/-- What is written of some results can be read back if each of them can. -/
theorem mapM_some_of_forall₂ {read : γ → Option β} {write : β → γ}
    (each : ∀ item result, related item result → read (write result) = some result)
    (all : List.Forall₂ related items results) : (results.map write).mapM read = some results := by
  induction all with
  | nil => rfl
  | cons first _ ih => simp [each _ _ first, ih]

theorem exists_of_mem_mapM {read : α → Option β} (mapped : items.mapM read = some results)
    {result : β} (member : result ∈ results) : ∃ item ∈ items, read item = some result := by
  induction items generalizing results with
  | nil =>
    cases mapped
    cases member
  | cons item items ih =>
    rw [List.mapM_cons] at mapped
    obtain ⟨first, found, mapped⟩ := Option.bind_eq_some_iff.1 mapped
    obtain ⟨others, further, mapped⟩ := Option.bind_eq_some_iff.1 mapped
    cases mapped
    obtain rfl | behind := List.mem_cons.1 member
    · exact ⟨item, List.mem_cons_self, found⟩
    · obtain ⟨source, present, same⟩ := ih further behind
      exact ⟨source, List.mem_cons_of_mem item present, same⟩

/-- Where all keys are different, a search for a key finds the item with it. -/
theorem find?_key_iff {key : α → String} (distinct : (items.map key).Nodup) {name : String} {item : α} :
    items.find? (fun other => decide (key other = name)) = some item ↔
      item ∈ items ∧ key item = name := by
  constructor
  · intro found
    exact ⟨List.mem_of_find?_eq_some found, by simpa using List.find?_some found⟩
  · rintro ⟨member, same⟩
    obtain ⟨other, found⟩ : ∃ other, items.find? (fun other => decide (key other = name)) =
        some other := by
      rw [← Option.isSome_iff_exists, List.find?_isSome]
      exact ⟨item, member, by simpa using same⟩
    have equal : key other = name := by simpa using List.find?_some found
    rw [found, List.inj_on_of_nodup_map distinct (List.mem_of_find?_eq_some found) member
      (equal.trans same.symm)]

/-- What no change of an item by its position can be seen in is as it was. -/
theorem map_mapIdx {change : Nat → α → α} {view : α → β}
    (kept : ∀ position item, items[position]? = some item →
      view (change position item) = view item) :
    (items.mapIdx change).map view = items.map view := by
  apply List.ext_getElem
  · simp
  · intro position inside _
    have listed : position < items.length := by simpa using inside
    rw [List.getElem_map, List.getElem_map, List.getElem_mapIdx]
    exact kept position _ (List.getElem?_eq_getElem listed)

end Related

section Passes
variable {ε ε' α β σ τ : Type} {f : ε → ε'} {items : List α}

theorem mapM_eq_ok_iff {step : α → Except ε β} {results : List β} :
    items.mapM step = .ok results ↔
      List.Forall₂ (fun item result => step item = .ok result) items results := by
  induction items generalizing results with
  | nil => simp [pure, Except.pure, eq_comm]
  | cons item items ih =>
    rw [List.mapM_cons, bind_eq_ok_iff, List.forall₂_cons_left_iff]
    constructor
    · rintro ⟨result, read, rest⟩
      obtain ⟨others, tail, made⟩ := bind_eq_ok_iff.1 rest
      cases made
      exact ⟨result, others, read, ih.1 tail, rfl⟩
    · rintro ⟨result, others, read, tail, rfl⟩
      exact ⟨result, read, bind_eq_ok_iff.2 ⟨others, ih.2 tail, rfl⟩⟩

/-- A pass over a list fails as it does at the first item at which it fails. -/
theorem mapM_eq_error_iff {step : α → Except ε β} {fault : ε} :
    items.mapM step = .error fault ↔ ∃ (index : Nat) (item : α), items[index]? = some item ∧
      step item = .error fault ∧
      ∀ earlier < index, ∀ before, items[earlier]? = some before →
        ∃ result, step before = .ok result := by
  induction items with
  | nil => simp [pure, Except.pure]
  | cons item items ih =>
    rw [List.mapM_cons, bind_eq_error_iff]
    constructor
    · rintro (failed | ⟨result, read, rest⟩)
      · exact ⟨0, item, by simp, failed, by simp⟩
      · obtain failed | ⟨_, _, made⟩ := bind_eq_error_iff.1 rest
        · obtain ⟨index, other, listed, wrong, earlier⟩ := ih.1 failed
          refine ⟨index + 1, other, by simpa using listed, wrong, ?_⟩
          intro position before stood standing
          cases position with
          | zero =>
            obtain rfl : item = stood := by simpa using standing
            exact ⟨result, read⟩
          | succ position =>
            exact earlier position (by omega) stood (by simpa using standing)
        · cases made
    · rintro ⟨index, other, listed, wrong, earlier⟩
      cases index with
      | zero =>
        obtain rfl : item = other := by simpa using listed
        exact .inl wrong
      | succ index =>
        obtain ⟨result, read⟩ := earlier 0 (by omega) item (by simp)
        refine .inr ⟨result, read, bind_eq_error_iff.2 (.inl (ih.2 ?_))⟩
        refine ⟨index, other, by simpa using listed, wrong, ?_⟩
        intro position before stood standing
        exact earlier (position + 1) (by omega) stood (by simpa using standing)

theorem mapM_map_mapError {change : α → α} {before : α → Except ε β} {after : α → Except ε' β}
    (same : ∀ item ∈ items, after (change item) = (before item).mapError f) :
    (items.map change).mapM after = (items.mapM before).mapError f := by
  induction items with
  | nil => rfl
  | cons item items ih =>
    obtain ⟨first, others⟩ := List.forall_mem_cons.1 same
    rw [List.map_cons, List.mapM_cons, List.mapM_cons, first, ih others, mapError_bind]
    congr 1
    funext result
    rw [mapError_bind]
    rfl

/-- A fold fails as it does at the item at which it fails, and has come that far. -/
theorem foldlM_eq_error_iff {step : σ → α → Except ε σ} {start : σ} {fault : ε} :
    items.foldlM step start = .error fault ↔ ∃ (index : Nat) (item : α) (state : σ),
      items[index]? = some item ∧ (items.take index).foldlM step start = .ok state ∧
        step state item = .error fault := by
  induction items generalizing start with
  | nil => simp [pure, Except.pure]
  | cons item items ih =>
    rw [List.foldlM_cons, bind_eq_error_iff]
    constructor
    · rintro (failed | ⟨next, reached, rest⟩)
      · exact ⟨0, item, start, rfl, rfl, failed⟩
      · obtain ⟨index, other, state, listed, ran, failed⟩ := ih.1 rest
        refine ⟨index + 1, other, state, by simpa using listed, ?_, failed⟩
        rw [List.take_succ_cons, List.foldlM_cons]
        exact bind_eq_ok_iff.2 ⟨next, reached, ran⟩
    · rintro ⟨index, other, state, listed, ran, failed⟩
      cases index with
      | zero =>
        obtain rfl : item = other := by simpa using listed
        obtain rfl : start = state := by simpa [pure, Except.pure] using ran
        exact .inl failed
      | succ index =>
        rw [List.take_succ_cons, List.foldlM_cons] at ran
        obtain ⟨next, reached, rest⟩ := bind_eq_ok_iff.1 ran
        exact .inr ⟨next, reached, ih.2 ⟨index, other, state, by simpa using listed, rest, failed⟩⟩

/-- What every step keeps, with the items that have been gone through, holds in the end of all of them. -/
theorem holds_of_foldlM {step : σ → α → Except ε σ} (holds : σ → List α → Prop)
    (keeps : ∀ state done item next, holds state done → step state item = .ok next →
      holds next (done ++ [item]))
    {done : List α} {state last : σ} (begins : holds state done)
    (run : items.foldlM step state = .ok last) : holds last (done ++ items) := by
  induction items generalizing state done with
  | nil =>
    cases run
    rwa [List.append_nil]
  | cons item items ih =>
    rw [List.foldlM_cons, bind_eq_ok_iff] at run
    obtain ⟨next, stepped, rest⟩ := run
    have behind := ih (keeps state done item next begins stepped) rest
    rwa [List.append_assoc, List.singleton_append] at behind

theorem foldlM_map_mapError {change : α → α} {before : σ → α → Except ε σ}
    {after : σ → α → Except ε' σ}
    (same : ∀ state item, after state (change item) = (before state item).mapError f)
    (items : List α) (state : σ) :
    (items.map change).foldlM after state = (items.foldlM before state).mapError f := by
  induction items generalizing state with
  | nil => rfl
  | cons item items ih =>
    rw [List.map_cons, List.foldlM_cons, List.foldlM_cons, same, mapError_bind]
    congr 1
    funext next
    exact ih next

/-- A run seen through a part of its state is the run of that part. -/
theorem map_foldlM {step : σ → α → Except ε σ} {view : σ → τ} {seen : τ → β → Except ε τ} {as : α → β}
    (each : ∀ state item, (step state item).map view = seen (view state) (as item))
    (items : List α) (state : σ) :
    (items.foldlM step state).map view = (items.map as).foldlM seen (view state) := by
  induction items generalizing state with
  | nil => rfl
  | cons item items ih =>
    rw [List.foldlM_cons, List.map_cons, List.foldlM_cons, ← each]
    cases step state item with
    | error fault => rfl
    | ok next => exact ih next

end Passes

end PetriCode
