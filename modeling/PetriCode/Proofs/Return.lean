import PetriCode.Proofs.Agreement

/-! From positions to names and back, in C. The first lookup hands out all bytes of a name, but what takes
them sees those before the first null byte. So the second lookup leads back exactly if what is seen
of the names tells them apart. The register compares names as they are, and two labels that differ
behind a null character, or one that begins with it, get past the register. -/
namespace PetriCode
open C

/-- From every position the first function leads to a text from which the second leads back. -/
def C.Program.Returns (program : Program) (size : Nat) (text position : String) : Prop :=
  ∀ index < size,
    (program.call? text (.number index)).bind (program.call? position) = some (.number index)

/-- None of the texts is empty, and no two of them are the same. -/
structure ToldApart (texts : List (List UInt8)) : Prop where
  inhabited : ∀ text ∈ texts, text ≠ []
  distinct : texts.Nodup

/-- What is seen of the texts in an array. -/
def C.Program.seen (program : Program) (array : String) : List (List UInt8) :=
  ((program.array? array).elim [] Prod.snd).map (·.takeWhile (· ≠ 0))

namespace NameTable
variable {table : NameTable}

theorem foundAt_eq_iff (table : NameTable) : (∀ (index : Nat) name, table.nameOf index = some name →
    table.foundAt (shown name) = index) ↔ ToldApart (table.names.map shown) := by
  constructor
  · intro back
    refine ⟨?_, ?_⟩
    · intro text member empty
      obtain ⟨name, listed, rfl⟩ := List.mem_map.1 member
      obtain ⟨index, named⟩ := List.mem_iff_getElem?.1 listed
      obtain ⟨inside, _⟩ := List.getElem?_eq_some_iff.1 named
      have found := back index name named
      rw [foundAt, if_pos empty] at found
      exact absurd inside (by simp [← found, size])
    -- Where two names are seen as the same text, that text leads to one position only.
    · rw [List.nodup_iff_getElem?_ne_getElem?]
      intro first second before inside same
      rw [List.length_map] at inside
      have firstName := List.getElem?_eq_getElem (Nat.lt_trans before inside)
      have secondName := List.getElem?_eq_getElem inside
      rw [List.getElem?_map, List.getElem?_map, firstName, secondName, Option.map_some,
        Option.map_some, Option.some.injEq] at same
      have again := back first _ firstName
      rw [same, back second _ secondName] at again
      omega
  · rintro ⟨inhabited, distinct⟩ index name named
    have seen : (table.names.map shown)[index]? = some (shown name) := by
      rw [List.getElem?_map, ← nameOf, named, Option.map_some]
    obtain ⟨inside, same⟩ := List.getElem?_eq_some_iff.1 seen
    rw [foundAt, if_neg (inhabited _ (List.mem_of_getElem? seen)), ← same,
      distinct.idxOf_getElem index inside]

/-- Names without null characters are told apart in C as they are in the table. -/
theorem Sound.toldApart (sound : table.Sound) (plain : ∀ name ∈ table.names, '\x00' ∉ name.toList) :
    ToldApart (table.names.map shown) := by
  have all : table.names.map shown = table.names.map bytes :=
    List.map_congr_left fun name member => shown_eq_bytes (plain name member)
  rw [all]
  refine ⟨?_, sound.distinct.map fun _ _ => bytes_inj.1⟩
  intro text member empty
  obtain ⟨name, listed, rfl⟩ := List.mem_map.1 member
  exact sound.inhabited name listed (bytes_eq_nil_iff.1 empty)

end NameTable

section Lookups
variable {naming : Naming} {kind : NodeKind} {width : String → Nat}

theorem seen_lookupProgram : (Emit.lookupProgram naming width).seen (naming.module.nameArray kind) =
    (naming.names kind).map shown := by
  by_cases empty : naming.names kind = []
  · rw [Program.seen, Emit.array?_lookupProgram_of_nil empty, empty]
    rfl
  · rw [Program.seen, Emit.array?_lookupProgram empty, Option.elim_some, List.map_map]
    rfl

theorem lookupProgram_returns_iff
    (knows : (Emit.lookupProgram naming width).Knows (naming.table kind))
    (wide : (naming.table kind).size < 2 ^ width (Naming.indexType kind)) :
    (Emit.lookupProgram naming width).Returns (naming.table kind).size
      (Emit.textHead naming.module kind).name (Emit.positionHead naming.module kind).name ↔
        ToldApart ((naming.names kind).map shown) := by
  refine Iff.trans ?_ (NameTable.foundAt_eq_iff (naming.table kind))
  constructor
  · intro returns index name named
    obtain ⟨inside, _⟩ := List.getElem?_eq_some_iff.1 named
    have there := returns index inside
    rw [Emit.call?_bind_call? knows wide named] at there
    simpa using there
  · intro back index inside
    have named : (naming.table kind).nameOf index = some (naming.table kind).names[index] :=
      List.getElem?_eq_getElem inside
    rw [Emit.call?_bind_call? knows wide named, back index _ named]

end Lookups

/-- In C, with the constants of the interface, every position of a table is found again from its name exactly if
what is seen of the names in its array, their bytes before the first null byte, is never empty and never the
same for two of them. That is so if no label has a null character. -/
theorem lookups_return_iff (net : Net) (module : String) (artifacts : Artifacts)
    (width : String → Nat) (generated : generate net module = .ok artifacts)
    (wide : ∀ kind, (artifacts.table kind).size < 2 ^ width (artifacts.table kind).indexType) :
    ∃ name incidences before after items, ModuleName.ofString? module = some name ∧
      net.incidences = .ok incidences ∧
      artifacts.implementation = before ++
        joined (Emit.constructor (net.named name) net.marking incidences).lines ++ "\n\n" ++
          after ∧
      read (before ++ after) = some items ∧
      artifacts.Enumerates (net.named name) ∧
      ∀ kind,
        let program := Program.mk items (constant? artifacts.constants) width
        let table := artifacts.table kind
        program.seen table.array = table.names.map shown ∧
          (program.Returns table.size (Emit.textHead name kind).name
            (Emit.positionHead name kind).name ↔ ToldApart (program.seen table.array)) ∧
          ((∀ label ∈ net.labels kind, '\x00' ∉ label.toList) →
            ToldApart (program.seen table.array)) := by
  obtain ⟨name, incidences, named, nameable, resolved, rfl⟩ := generate_eq_ok_iff.1 generated
  obtain ⟨before, after, text, reading⟩ :=
    Emit.read_around_constructor (net.named name) net.marking incidences
  refine ⟨name, incidences, before, after, _, named, Net.incidences_eq_ok_iff.2 resolved, text,
    reading, enumerates_assemble _ _ _, ?_⟩
  intro kind
  have enough := wide kind
  rw [Artifacts.table_assemble] at enough ⊢
  have seen : (Emit.lookupProgram (net.named name) width).seen
      ((net.named name).table kind).array = ((net.named name).table kind).names.map shown :=
    seen_lookupProgram
  refine ⟨seen, ?_, ?_⟩
  · have returns := lookupProgram_returns_iff (Emit.knows_table nameable width kind) enough
    exact returns.trans (iff_of_eq (congrArg ToldApart seen.symm))
  · intro plain
    have names := Net.nul_not_mem_names plain name
    exact (congrArg ToldApart seen.symm).mp ((nameable.sound kind).toldApart names)

theorem lookups_return_handover : ∃ artifacts name incidences before after items,
    generate handover "Demo" = .ok artifacts ∧ ModuleName.ofString? "Demo" = some name ∧
      (∀ kind, (artifacts.table kind).size < 2 ^ 32) ∧
      artifacts.implementation = before ++
        joined (Emit.constructor (handover.named name) handover.marking incidences).lines ++
          "\n\n" ++ after ∧
      read (before ++ after) = some items ∧
      (Program.mk items (constant? artifacts.constants) fun _ => 32).Returns 2
        (Emit.textHead name .place).name (Emit.positionHead name .place).name := by
  obtain ⟨artifacts, generated⟩ := handover_generates
  have wide := handover_size generated
  obtain ⟨name, incidences, before, after, items, named, _, text, reading, _, tables⟩ :=
    lookups_return_iff handover "Demo" artifacts (fun _ => 32) generated wide
  obtain ⟨_, returns, plain⟩ := tables .place
  refine ⟨artifacts, name, incidences, before, after, items, generated, named, wide, text, reading, ?_⟩
  have places : (artifacts.table .place).size = 2 := artifacts.size_table generated .place
  rw [← places]
  exact returns.2 (plain (handover_hasPlainLabels .place))

/-- A net with a place of which nothing is seen in C. -/
def blanked : Net where
  places := ⟨[⟨"p0", "\x00", 1⟩], by decide⟩
  transitions := .empty
  arcs := []

/-- A label that is a null character is accepted, and the position of its place is not found again. -/
theorem blank_unreturned : ∃ artifacts name before after items,
    generate blanked "demo" = .ok artifacts ∧ ModuleName.ofString? "demo" = some name ∧
      artifacts.implementation = before ++
        joined (Emit.constructor (blanked.named name) [1] []).lines ++ "\n\n" ++ after ∧
      read (before ++ after) = some items ∧ artifacts.Enumerates (blanked.named name) ∧
      let program := Program.mk items (constant? artifacts.constants) fun _ => 32
      program.seen artifacts.places.array = [[]] ∧
        ¬ program.Returns 1 (Emit.textHead name .place).name
          (Emit.positionHead name .place).name := by
  obtain ⟨artifacts, generated⟩ : ∃ artifacts, generate blanked "demo" = .ok artifacts :=
    exists_ok_of_isOk (by decide +kernel)
  obtain ⟨name, incidences, named, nameable, resolved, rfl⟩ := generate_eq_ok_iff.1 generated
  obtain rfl := List.forall₂_nil_left_iff.1 resolved
  obtain ⟨before, after, text, reading⟩ :=
    Emit.read_around_constructor (blanked.named name) blanked.marking []
  have names : (blanked.named name).names .place = ["\x00"] := by
    rw [Net.names_named_kind]
    decide +kernel
  have nothing : shown "\x00" = [] := by decide
  have seen : (Emit.lookupProgram (blanked.named name) fun _ => 32).seen
      (name.nameArray .place) = [[]] := by
    rw [← nothing, ← List.map_singleton, ← names]
    exact seen_lookupProgram
  have size : ((blanked.named name).table .place).size = 1 := congrArg List.length names
  refine ⟨_, name, before, after, _, generated, named, text, reading,
    enumerates_assemble _ _ _, seen, ?_⟩
  intro returns
  have knows := Emit.knows_table nameable (fun _ => 32) .place
  rw [← size] at returns
  have apart := (lookupProgram_returns_iff knows (by rw [size]; decide)).1 returns
  rw [names] at apart
  exact apart.inhabited _ List.mem_cons_self nothing

end PetriCode
