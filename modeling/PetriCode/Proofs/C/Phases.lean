import Mathlib.Data.List.Chain

/-! What is done to a text before its tokens are read: three characters that begin with two question marks
stand for one character, and a backslash before a line end joins two lines. A text is left as it is
if it has neither two question marks side by side nor a backslash at the end of a line. -/
namespace PetriCode.C

/-- The character that stands behind two question marks for another one. -/
def trigraph? (c : Char) : Option Char :=
  [('=', '#'), ('(', '['), ('/', '\\'), (')', ']'), ('\'', '^'), ('<', '\x7b'), ('!', '|'),
    ('>', '\x7d'), ('-', '~')].lookup c

def withoutTrigraphs : List Char → List Char
  | '?' :: '?' :: c :: rest =>
    match trigraph? c with
    | some meant => meant :: withoutTrigraphs rest
    | none => '?' :: withoutTrigraphs ('?' :: c :: rest)
  | c :: rest => c :: withoutTrigraphs rest
  | [] => []

def withoutSplices : List Char → List Char
  | '\\' :: '\n' :: rest => withoutSplices rest
  | c :: rest => c :: withoutSplices rest
  | [] => []

def logical (text : List Char) : List Char := withoutSplices (withoutTrigraphs text)

/-- Characters that may stand side by side in a text that is left as it is. -/
def Calm (first second : Char) : Prop :=
  ¬ (first = '?' ∧ second = '?') ∧ ¬ (first = '\\' ∧ second = '\n')

theorem withoutTrigraphs_eq_self {text : List Char} (calm : text.IsChain Calm) :
    withoutTrigraphs text = text := by
  fun_induction withoutTrigraphs text with
  | case1 c rest meant _ _ => exact absurd ⟨rfl, rfl⟩ (List.isChain_cons_cons.1 calm).1.1
  | case2 c rest _ _ => exact absurd ⟨rfl, rfl⟩ (List.isChain_cons_cons.1 calm).1.1
  | case3 c rest _ ih => rw [ih calm.tail]
  | case4 => rfl

theorem withoutSplices_eq_self {text : List Char} (calm : text.IsChain Calm) :
    withoutSplices text = text := by
  fun_induction withoutSplices text with
  | case1 rest _ => exact absurd ⟨rfl, rfl⟩ (List.isChain_cons_cons.1 calm).1.2
  | case2 c rest _ ih => rw [ih calm.tail]
  | case3 => rfl

theorem logical_eq_self {text : List Char} (calm : text.IsChain Calm) : logical text = text := by
  rw [logical, withoutTrigraphs_eq_self calm, withoutSplices_eq_self calm]

/-- A text that is left as it is, also before any other text of that kind. -/
structure Solid (text : List Char) : Prop where
  calm : text.IsChain Calm
  ends : ∀ c ∈ text.getLast?, c ≠ '?' ∧ c ≠ '\\'

theorem Solid.append {front back : List Char} (first : Solid front) (second : Solid back) :
    Solid (front ++ back) where
  calm := by
    apply first.calm.append second.calm
    intro last final next _
    obtain ⟨question, backslash⟩ := first.ends last final
    exact ⟨fun both => question both.1, fun both => backslash both.1⟩
  ends := by
    intro c final
    rw [List.getLast?_append, Option.mem_def, Option.or_eq_some_iff] at final
    obtain inside | ⟨_, before⟩ := final
    · exact second.ends c inside
    · exact first.ends c before

theorem Solid.tail {c : Char} {text : List Char} (solid : Solid (c :: text)) : Solid text where
  calm := solid.calm.tail
  ends := by
    intro last final
    cases text with
    | nil => cases final
    | cons next text => exact solid.ends last (by rwa [List.getLast?_cons_cons])

/-- A solid text ends before a question mark or a line end could go on with it. -/
theorem Solid.calm_head? {c : Char} {text : List Char} (solid : Solid (c :: text))
    (rest : List Char) : ¬ (c = '?' ∧ (text ++ rest).head? = some '?') ∧
      ¬ (c = '\\' ∧ (text ++ rest).head? = some '\n') := by
  cases text with
  | nil =>
    obtain ⟨question, backslash⟩ := solid.ends c rfl
    exact ⟨fun both => question both.1, fun both => backslash both.1⟩
  | cons next text =>
    have calm := (List.isChain_cons_cons.1 solid.calm).1
    simpa [Calm] using calm

theorem withoutTrigraphs_cons {c : Char} {rest : List Char}
    (single : ¬ (c = '?' ∧ rest.head? = some '?')) :
    withoutTrigraphs (c :: rest) = c :: withoutTrigraphs rest := by
  rw [withoutTrigraphs]
  rintro next behind rfl rfl
  exact single ⟨rfl, rfl⟩

theorem withoutSplices_cons {c : Char} {rest : List Char}
    (single : ¬ (c = '\\' ∧ rest.head? = some '\n')) :
    withoutSplices (c :: rest) = c :: withoutSplices rest := by
  rw [withoutSplices]
  rintro behind rfl rfl
  exact single ⟨rfl, rfl⟩

/-- What stands behind a solid text is replaced as if it stood alone. -/
theorem Solid.withoutTrigraphs_append {front : List Char} (solid : Solid front) (rest : List Char) :
    withoutTrigraphs (front ++ rest) = front ++ withoutTrigraphs rest := by
  induction front with
  | nil => rfl
  | cons c front ih =>
    rw [List.cons_append, withoutTrigraphs_cons (solid.calm_head? rest).1, ih solid.tail,
      List.cons_append]

theorem Solid.withoutSplices_append {front : List Char} (solid : Solid front) (rest : List Char) :
    withoutSplices (front ++ rest) = front ++ withoutSplices rest := by
  induction front with
  | nil => rfl
  | cons c front ih =>
    rw [List.cons_append, withoutSplices_cons (solid.calm_head? rest).2, ih solid.tail,
      List.cons_append]

theorem Solid.logical_append {front : List Char} (solid : Solid front) (rest : List Char) :
    logical (front ++ rest) = front ++ logical rest := by
  rw [logical, solid.withoutTrigraphs_append, solid.withoutSplices_append, logical]

section Marks
variable {mark : Char}

/-- A mark that is no part of what stands for another character divides a text. -/
theorem withoutTrigraphs_mark (plain : mark ≠ '?') (alone : trigraph? mark = none)
    (front rest : List Char) : withoutTrigraphs (front ++ mark :: rest) =
      withoutTrigraphs front ++ mark :: withoutTrigraphs rest := by
  fun_induction withoutTrigraphs front with
  | case1 c tail meant found ih => simp [withoutTrigraphs, found, ih]
  | case2 c tail found ih =>
    rw [List.cons_append, List.cons_append] at ih
    simp [withoutTrigraphs, found, ih]
  | case3 c tail other ih =>
    by_cases double : c = '?' ∧ (tail ++ mark :: rest).head? = some '?'
    · -- Both question marks are there, and the mark behind them is no third character.
      obtain ⟨rfl, again⟩ := double
      cases tail with
      | nil => exact absurd (Option.some.inj again) plain
      | cons next tail =>
        obtain rfl := Option.some.inj again
        cases tail with
        | nil => simp [withoutTrigraphs, alone, withoutTrigraphs_cons, plain]
        | cons third tail => exact absurd rfl (other third tail rfl)
    · rw [List.cons_append, withoutTrigraphs_cons double, ih, List.cons_append]
  | case4 => exact withoutTrigraphs_cons fun both => plain both.1

theorem withoutSplices_mark (solid : mark ≠ '\\') (within : mark ≠ '\n') (front rest : List Char) :
    withoutSplices (front ++ mark :: rest) =
      withoutSplices front ++ mark :: withoutSplices rest := by
  fun_induction withoutSplices front with
  | case1 tail ih => simp [withoutSplices, ih]
  | case2 c tail other ih =>
    rw [List.cons_append, withoutSplices_cons, ih, List.cons_append]
    rintro ⟨rfl, lineEnd⟩
    cases tail with
    | nil => exact within (Option.some.inj lineEnd)
    | cons next tail =>
      obtain rfl := Option.some.inj lineEnd
      exact other tail rfl rfl
  | case3 => exact withoutSplices_cons fun both => solid both.1

theorem logical_mark (plain : mark ≠ '?' ∧ trigraph? mark = none)
    (within : mark ≠ '\\' ∧ mark ≠ '\n') (front rest : List Char) :
    logical (front ++ mark :: rest) = logical front ++ mark :: logical rest := by
  rw [logical, withoutTrigraphs_mark plain.1 plain.2, withoutSplices_mark within.1 within.2,
    logical, logical]

end Marks

theorem isLower_of_trigraph? {c meant : Char} (found : trigraph? c = some meant) :
    meant.isLower = false := by
  obtain ⟨before, behind, parts, _⟩ := List.lookup_eq_some_iff.1 found
  have small : ∀ pair ∈ before ++ (c, meant) :: behind, pair.2.isLower = false := by
    rw [← parts]
    decide
  exact small (c, meant) (by simp)

theorem isLower_withoutTrigraphs {text : List Char} (upper : ∀ c ∈ text, c.isLower = false) :
    ∀ c ∈ withoutTrigraphs text, c.isLower = false := by
  fun_induction withoutTrigraphs text with
  | case1 c rest meant found ih =>
    simp only [List.forall_mem_cons] at upper
    exact List.forall_mem_cons.2 ⟨isLower_of_trigraph? found, ih upper.2.2.2⟩
  | case2 c rest found ih =>
    rw [List.forall_mem_cons] at upper
    exact List.forall_mem_cons.2 ⟨upper.1, ih upper.2⟩
  | case3 c rest other ih =>
    rw [List.forall_mem_cons] at upper
    exact List.forall_mem_cons.2 ⟨upper.1, ih upper.2⟩
  | case4 => exact upper

theorem withoutSplices_sublist (text : List Char) : (withoutSplices text).Sublist text := by
  fun_induction withoutSplices text with
  | case1 rest ih => exact (ih.cons '\n').cons '\\'
  | case2 c rest _ ih => exact ih.cons_cons c
  | case3 => exact .slnil

/-- The phases bring in no lower case letter. -/
theorem isLower_logical {text : List Char} (upper : ∀ c ∈ text, c.isLower = false) :
    ∀ c ∈ logical text, c.isLower = false :=
  fun c member => isLower_withoutTrigraphs upper c ((withoutSplices_sublist _).subset member)

def Plain (text : List Char) : Prop := ∀ c ∈ text, c ≠ '?' ∧ c ≠ '\\'

@[simp] theorem plain_nil : Plain [] := by simp [Plain]

@[simp] theorem plain_cons {c : Char} {text : List Char} :
    Plain (c :: text) ↔ (c ≠ '?' ∧ c ≠ '\\') ∧ Plain text := List.forall_mem_cons

@[simp] theorem plain_append {front back : List Char} :
    Plain (front ++ back) ↔ Plain front ∧ Plain back := List.forall_mem_append

theorem Plain.solid {text : List Char} (plain : Plain text) : Solid text where
  calm := by
    induction text with
    | nil => exact .nil
    | cons c text ih =>
      obtain ⟨⟨question, backslash⟩, others⟩ := plain_cons.1 plain
      refine List.isChain_cons.2 ⟨?_, ih others⟩
      intro next _
      exact ⟨fun both => question both.1, fun both => backslash both.1⟩
  ends := fun c final => plain c (List.mem_of_getLast? final)

end PetriCode.C
