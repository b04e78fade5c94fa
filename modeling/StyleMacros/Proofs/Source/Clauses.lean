import StyleMacros.Proofs.Source.Printing

/-!
# The clauses of a declaration written out

Generic parameters, inherited types and requirements are read back from in front of the clause
or the body that stands behind them, and none of them takes anything from it.
-/

set_option autoImplicit false

namespace StyleMacros

/-! ## Runs of plain characters -/

theorem Region.afterContent_run {region : Region} {run : Text}
    (passes : ∀ char ∈ run, ∀ rest,
      region.afterInner? (char :: rest) = none ∧ region.plain (char :: rest) = some rest)
    (rest : Text) : region.afterContent (run ++ rest) = region.afterContent rest := by
  induction run with
  | nil => rfl
  | cons head tail inductionHypothesis =>
      obtain ⟨inner, plain⟩ := passes head List.mem_cons_self (tail ++ rest)
      rw [List.cons_append, Region.afterContent_of_plain inner plain]
      exact inductionHypothesis fun char member => passes char (List.mem_cons_of_mem head member)

/-! ## Generic parameters -/

structure WrittenParameter where
  name : Text
  constraint : Option DottedName
  word : name.isIdentifier = true

def EndsParameter (tail : Text) : Prop :=
  ∃ mark rest, tail = mark :: rest ∧ (mark = ',' ∨ mark = '>')

theorem constraint_passes (path : DottedName) : ∀ char ∈ path.text, ∀ rest,
    Region.constraint.afterInner? (char :: rest) = none ∧
      Region.constraint.plain (char :: rest) = some rest := by
  intro char member rest
  have free : ∀ mark ∈ ['<', '(', '[', '-', ',', '>', '\x7b'], char ≠ mark := by
    intro mark marks
    have stops : mark ∈ punctuation ∧ mark ≠ '.' := by
      revert mark
      decide
    exact path.ne_of_mem_text member stops.1 stops.2
  simp only [List.forall_mem_cons] at free
  obtain ⟨angle, round, square, dash, comma, closing, curly, _⟩ := free
  constructor
  · simp [Region.afterInner?, Region.openings, Region.angleOpenings, Region.roundOpenings,
      Region.squareOpenings, angle, round, square]
  · simp [Region.plain, Region.arrowOr, Region.otherThan, dash, comma, closing, angle, curly]

theorem readConstraint_text (path : DottedName) {tail : Text} (ends : EndsParameter tail) :
    readConstraint (path.text ++ tail) = some (path.text, tail) := by
  have stops : Region.constraint.afterContent tail = tail := by
    obtain ⟨mark, rest, rfl, rfl | rfl⟩ := ends
    · exact Region.afterContent_of_none rfl rfl
    · exact Region.afterContent_of_none rfl rfl
  have behind : Region.constraint.afterContent (path.text ++ tail) = tail :=
    (Region.afterContent_run (constraint_passes path) tail).trans stops
  have shorter : tail.length < (path.text ++ tail).length := by
    obtain ⟨head, rest, exact, _⟩ := path.exists_head
    rw [exact, List.length_append, List.length_cons]
    omega
  simp only [readConstraint, behind, shorter, if_true, Text.before_append, path.trim_text]

namespace WrittenParameter

def text (parameter : WrittenParameter) : Text :=
  parameter.name ++ (parameter.constraint.elim [] fun path => ':' :: ' ' :: path.text)

def value (parameter : WrittenParameter) : GenericParameter :=
  ⟨parameter.name, parameter.constraint.map DottedName.text⟩

theorem readGenericParameter_text (parameter : WrittenParameter) {tail : Text}
    (ends : EndsParameter tail) :
    readGenericParameter (parameter.text ++ tail) = some (parameter.value, tail) := by
  obtain ⟨name, constraint, word⟩ := parameter
  cases constraint with
  | none =>
      obtain ⟨mark, rest, rfl, marks⟩ := ends
      have stops : mark ∈ punctuation ∧ mark ≠ ':' ∧ mark ≠ '/' ∧ isTokenBlank mark = false := by
        rcases marks with rfl | rfl <;> decide
      have read := Text.identifier?_append word (Text.endsWord_of_punctuation stops.1 rest)
      have start := skipTrivia_of_token stops.2.2.2 stops.2.2.1 rest
      simp only [text, Option.elim_none, List.append_nil, readGenericParameter, read,
        Option.bind_eq_bind, Option.bind_some, start]
      split
      · rename_i behind same
        exact absurd (List.cons.inj same).1 stops.2.1
      · rfl
  | some path =>
      have read := Text.identifier?_append word
        (Text.endsWord_of_punctuation (by decide : ':' ∈ punctuation) (' ' :: (path.text ++ tail)))
      have start : skipTrivia (' ' :: (path.text ++ tail)) = path.text ++ tail := by
        rw [skipTrivia_of_blank (by decide)]
        exact path.skipTrivia_text tail
      simp only [text, Option.elim_some, List.append_assoc, List.cons_append,
        readGenericParameter, read, Option.bind_eq_bind, Option.bind_some,
        skipTrivia_of_token (by decide : isTokenBlank ':' = false) (by decide), start,
        readConstraint_text path ends]
      rfl

theorem readsBack (parameters : List WrittenParameter) :
    ReadsBack readGenericParameter text value EndsParameter parameters where
  reads := fun parameter _ tail ends => parameter.readGenericParameter_text ends
  starts := fun parameter _ tail => by
    rw [text, List.append_assoc]
    exact skipTrivia_append_of_isIdentifier parameter.word _
  comma := fun tail => ⟨',', tail, rfl, .inl rfl⟩

end WrittenParameter

theorem readOptional_congr {Part : Type} {read : Text → Option (Part × Text)} {first second : Text}
    (same : skipTrivia first = skipTrivia second) :
    readOptional read first = readOptional read second := by
  rw [readOptional, readOptional, same]

/-- The parameters in angle brackets, if there are any. -/
def parameterClause (parameters : List WrittenParameter) : Text :=
  if parameters.isEmpty then [] else '<' :: (listed WrittenParameter.text parameters ++ ['>'])

theorem readGenericParameters_clause {parameters : List WrittenParameter}
    (nonempty : parameters ≠ []) (tail : Text) :
    readGenericParameters ('<' :: (listed WrittenParameter.text parameters ++ '>' :: tail)) =
      some (parameters.map WrittenParameter.value, tail) := by
  have back := WrittenParameter.readsBack parameters
  have stops : skipTrivia ('>' :: tail) = '>' :: tail := skipTrivia_of_token (by decide) (by decide) _
  have ends : EndsParameter ('>' :: tail) := ⟨'>', tail, rfl, .inr rfl⟩
  have list := back.readSeparated nonempty ends (by rw [stops]; simp)
  have start := back.skipTrivia_listed nonempty ('>' :: tail)
  simp only [readGenericParameters, start, list, Option.bind_eq_bind, Option.bind_some,
    afterFinalComma, stops]
  rfl

/-- The parameters are read back, and whether there are any or not the text behind the clause is
what reading goes on with. -/
theorem readOptional_parameterClause (parameters : List WrittenParameter) {tail : Text}
    (ends : (skipTrivia tail).head? ≠ some '<') :
    (readOptional readGenericParameters (parameterClause parameters ++ tail)).1.getD [] =
        parameters.map WrittenParameter.value ∧
      skipTrivia (readOptional readGenericParameters (parameterClause parameters ++ tail)).2 =
        skipTrivia tail := by
  by_cases empty : parameters = []
  · subst empty
    have none : readGenericParameters (skipTrivia tail) = none := by
      unfold readGenericParameters
      split
      · rename_i same
        rw [same] at ends
        exact absurd rfl ends
      · rfl
    have read : readOptional readGenericParameters tail = (Option.none, skipTrivia tail) := by
      simp only [readOptional, none]
    simp only [parameterClause, List.isEmpty_nil, if_true, List.nil_append, read]
    exact ⟨rfl, skipTrivia_skipTrivia tail⟩
  · have clause : parameterClause parameters ++ tail =
        '<' :: (listed WrittenParameter.text parameters ++ '>' :: tail) := by
      simp [parameterClause, empty]
    have read : readOptional readGenericParameters (parameterClause parameters ++ tail) =
        (some (parameters.map WrittenParameter.value), tail) := by
      simp only [readOptional, clause, readGenericParameters_clause empty tail,
        skipTrivia_of_token (by decide : isTokenBlank '<' = false) (by decide)]
    rw [read]
    exact ⟨rfl, rfl⟩

/-! ## Inherited types -/

/-- The characters that may stand right behind an inherited type. -/
def typeStops : List Char :=
  [' ', '\t', '\n', '\r', ',', '/', '\x7b']

/-- A type ends here: no ampersand stands behind the blanks. -/
def EndsType (tail : Text) : Prop :=
  ∃ mark rest, tail = mark :: rest ∧ mark ∈ typeStops ∧
    (tail.dropWhile isTokenBlank).head? ≠ some '&'

def typeQualifiers : List Text :=
  ["any", "some"]

theorem afterBlanks?_of_solid {head : Char} (solid : isTokenBlank head = false) (rest : Text) :
    afterBlanks? (head :: rest) = none := by
  simp [afterBlanks?, solid]

theorem isTokenBlank_eq_false_of_notMem {char : Char} (other : char ∉ punctuation) :
    isTokenBlank char = false := by
  simp only [punctuation, List.mem_cons, List.not_mem_nil, or_false, not_or] at other
  simp [isTokenBlank, other]

section Types

variable (path : DottedName) {mark : Char} (rest : Text)

theorem afterQualifier?_text (stops : mark ∈ punctuation) {word : Text}
    (letters : ∀ char ∈ word, isIdentifierContinue char = true) (other : path.text ≠ word) :
    (Text.after? word (path.text ++ mark :: rest)).bind afterBlanks? = none := by
  cases found : Text.after? word (path.text ++ mark :: rest) with
  | none => rfl
  | some behind =>
      have same := Text.append_of_after? found
      rcases List.append_eq_append_iff.mp same with ⟨more, exact, tail⟩ | ⟨more, exact, tail⟩
      · cases more with
        | nil =>
            rw [List.append_nil] at exact
            exact absurd exact other
        | cons head others =>
            have solid : isTokenBlank head = false := by
              have member : head ∈ path.text := exact ▸ List.mem_append_right word List.mem_cons_self
              rcases path.mem_text member with continues | rfl
              · exact isTokenBlank_eq_false_of_notMem
                  (notMem_punctuation_of_isIdentifierContinue continues)
              · decide
            rw [tail]
            exact afterBlanks?_of_solid solid _
      · cases more with
        | nil =>
            rw [List.append_nil] at exact
            exact absurd exact.symm other
        | cons head others =>
            have letter := letters head (exact ▸ List.mem_append_right path.text List.mem_cons_self)
            have same : mark = head := (List.cons.inj tail).1
            exact absurd (same ▸ stops) (notMem_punctuation_of_isIdentifierContinue letter)

theorem afterTypeTerm?_text (unqualified : path.text ∉ typeQualifiers)
    (ends : mark ∈ typeStops) :
    afterTypeTerm? (path.text ++ mark :: rest) = some (mark :: rest) := by
  simp only [typeQualifiers, List.mem_cons, List.not_mem_nil, or_false, not_or] at unqualified
  have stopped : ∀ mark ∈ typeStops,
      mark ∈ punctuation ∧ mark ≠ '.' ∧ mark ≠ '<' ∧ mark ≠ '?' ∧ mark ≠ '!' := by
    decide
  have stops := stopped mark ends
  obtain ⟨head, others, exact, letter⟩ := path.exists_head
  have solid := notMem_punctuation_of_isIdentifierContinue letter
  have noAttribute : afterTypeAttribute? (path.text ++ mark :: rest) = none := by
    have noMark : head ≠ '@' := by
      rintro rfl
      exact solid (by decide)
    rw [exact, List.cons_append]
    unfold afterTypeAttribute?
    split
    · rename_i same
      exact absurd (List.cons.inj same).1 noMark
    · rfl
  have noTilde : Text.after? "~" (path.text ++ mark :: rest) = none := by
    have noMark : '~' ≠ head := by
      rintro rfl
      exact solid (by decide)
    rw [exact]
    simp [Text.after?, List.isPrefixOf?, noMark]
  have noQualifier : afterTypeQualifier? (path.text ++ mark :: rest) = none := by
    have any := afterQualifier?_text path rest stops.1 (by decide +kernel) unqualified.1
    have some := afterQualifier?_text path rest stops.1 (by decide +kernel) unqualified.2
    rw [afterTypeQualifier?]
    cases found : Text.after? "any" (path.text ++ mark :: rest) with
    | none => exact some
    | some behind =>
        rw [found] at any
        exact any
  have read := path.afterTypePath?_text stops.1 stops.2.1 stops.2.2.1 rest
  simp only [afterTypeTerm?, noAttribute, noTilde, noQualifier, Option.getD_none, read,
    Option.some_or, Option.bind_eq_bind, Option.bind_some]
  simp [stops]

theorem readTypeReference_text (unqualified : path.text ∉ typeQualifiers)
    {tail : Text} (ends : EndsType tail) :
    readTypeReference (path.text ++ tail) = some (path.text, tail) := by
  obtain ⟨mark, rest, rfl, stops, single⟩ := ends
  have composed (fuel : Nat) : afterComposition fuel (mark :: rest) = mark :: rest := by
    cases fuel with
    | zero => rfl
    | succ fuel =>
        rw [afterComposition]
        split
        · rename_i behind same
          rw [same] at single
          exact absurd rfl single
        · rfl
  simp only [readTypeReference, afterTypeTerm?_text path rest unqualified stops, Option.bind_eq_bind,
    Option.bind_some, composed, Text.before_append, path.trim_text]
  rfl

end Types

/-- A blank stands behind the clauses so far, and then requirements or the body. -/
def EndsHeader (tail : Text) : Prop :=
  ∃ head rest, tail = ' ' :: head :: rest ∧ (head = 'w' ∨ head = '\x7b')

theorem EndsHeader.skipTrivia {tail : Text} (ends : EndsHeader tail) :
    ∃ head rest, StyleMacros.skipTrivia tail = head :: rest ∧ (head = 'w' ∨ head = '\x7b') := by
  obtain ⟨head, rest, rfl, marks⟩ := ends
  refine ⟨head, rest, ?_, marks⟩
  rw [skipTrivia_of_blank (by decide)]
  rcases marks with rfl | rfl
  · exact skipTrivia_of_token (by decide) (by decide) rest
  · exact skipTrivia_of_token (by decide) (by decide) rest

theorem EndsHeader.endsType {tail : Text} (ends : EndsHeader tail) : EndsType tail := by
  obtain ⟨head, rest, rfl, marks⟩ := ends
  refine ⟨' ', head :: rest, rfl, by decide, ?_⟩
  rcases marks with rfl | rfl <;> simp [isTokenBlank]

theorem readsBack_types {types : List DottedName}
    (unqualified : ∀ path ∈ types, path.text ∉ typeQualifiers) :
    ReadsBack readTypeReference DottedName.text DottedName.text EndsType types where
  reads := fun path member _ ends => readTypeReference_text path (unqualified path member) ends
  starts := fun path _ tail => path.skipTrivia_text tail
  comma := fun tail => ⟨',', tail, rfl, by decide, by simp [isTokenBlank]⟩

def inheritanceClause (types : List DottedName) : Text :=
  if types.isEmpty then [] else ':' :: ' ' :: listed DottedName.text types

theorem readInheritance_clause {types : List DottedName}
    (unqualified : ∀ path ∈ types, path.text ∉ typeQualifiers) (nonempty : types ≠ [])
    {tail : Text} (ends : EndsHeader tail) :
    readInheritance (':' :: ' ' :: (listed DottedName.text types ++ tail)) =
      some (types.map DottedName.text, tail) := by
  have back := readsBack_types unqualified
  have start : skipTrivia (' ' :: (listed DottedName.text types ++ tail)) =
      listed DottedName.text types ++ tail := by
    rw [skipTrivia_of_blank (by decide)]
    exact back.skipTrivia_listed nonempty tail
  have last : (skipTrivia tail).head? ≠ some ',' := by
    obtain ⟨head, rest, exact, marks⟩ := ends.skipTrivia
    rw [exact]
    rcases marks with rfl | rfl <;> simp
  simp only [readInheritance, start, back.readSeparated nonempty ends.endsType last]

theorem readOptional_inheritanceClause {types : List DottedName}
    (unqualified : ∀ path ∈ types, path.text ∉ typeQualifiers) {tail : Text}
    (ends : EndsHeader tail) :
    (readOptional readInheritance (inheritanceClause types ++ tail)).1.getD [] =
        types.map DottedName.text ∧
      skipTrivia (readOptional readInheritance (inheritanceClause types ++ tail)).2 =
        skipTrivia tail := by
  by_cases empty : types = []
  · subst empty
    have none : readInheritance (skipTrivia tail) = none := by
      obtain ⟨head, rest, exact, marks⟩ := ends.skipTrivia
      rw [exact]
      rcases marks with rfl | rfl <;> rfl
    have read : readOptional readInheritance tail = (Option.none, skipTrivia tail) := by
      simp only [readOptional, none]
    simp only [inheritanceClause, List.isEmpty_nil, if_true, List.nil_append, read]
    exact ⟨rfl, skipTrivia_skipTrivia tail⟩
  · have clause : inheritanceClause types ++ tail =
        ':' :: ' ' :: (listed DottedName.text types ++ tail) := by
      simp [inheritanceClause, empty]
    have read : readOptional readInheritance (inheritanceClause types ++ tail) =
        (some (types.map DottedName.text), tail) := by
      simp only [readOptional, clause, readInheritance_clause unqualified empty ends,
        skipTrivia_of_token (by decide : isTokenBlank ':' = false) (by decide)]
    rw [read]
    exact ⟨rfl, rfl⟩

/-! ## Requirements -/

def requirementMarks : List Char :=
  ['(', '[', '<', '\x7b']

theorem requirements_pass {char : Char} (plain : char ∉ requirementMarks) (rest : Text) :
    Region.requirements.afterInner? (char :: rest) = none ∧
      Region.requirements.plain (char :: rest) = some rest := by
  simp only [requirementMarks, List.mem_cons, List.not_mem_nil, or_false, not_or] at plain
  constructor
  · simp [Region.afterInner?, Region.openings, Region.angleOpenings, Region.roundOpenings,
      Region.squareOpenings, plain]
  · simp [Region.plain, Region.otherThan, plain]

def requirementClause : Option Text → Text
  | none => []
  | some words => ' ' :: ("where " ++ words)

theorem endsHeader_requirementClause (requirements : Option Text) (content : Text) :
    EndsHeader (requirementClause requirements ++ ' ' :: '\x7b' :: content) := by
  cases requirements with
  | none => exact ⟨'\x7b', content, rfl, .inr rfl⟩
  | some words => exact ⟨'w', _, rfl, .inl rfl⟩

theorem readRequirements_clause {words : Text} (plain : ∀ char ∈ words, char ∉ requirementMarks)
    (content : Text) :
    readRequirements ("where".toList ++ ' ' :: (words ++ ' ' :: '\x7b' :: content)) =
      some (Text.trim ("where " ++ words), '\x7b' :: content) := by
  have word : Text.afterWord? ("where".toList ++ ' ' :: (words ++ ' ' :: '\x7b' :: content))
      "where" = some (' ' :: (words ++ ' ' :: '\x7b' :: content)) :=
    Text.afterWord?_append (by decide +kernel) (Text.endsWord_of_punctuation (by decide) _)
  have run : ' ' :: (words ++ ' ' :: '\x7b' :: content) =
      (' ' :: (words ++ [' '])) ++ '\x7b' :: content := by simp
  have ends : Region.requirements.afterContent (' ' :: (words ++ ' ' :: '\x7b' :: content)) =
      '\x7b' :: content := by
    rw [run, Region.afterContent_run]
    · exact Region.afterContent_of_none rfl rfl
    · intro char member rest
      apply requirements_pass
      rcases List.mem_cons.mp member with rfl | later
      · decide
      · rcases List.mem_append.mp later with inWords | atEnd
        · exact plain char inWords
        · cases List.mem_singleton.mp atEnd
          decide
  have trimmed : Text.trim ("where".toList ++ (' ' :: (words ++ [' ']))) =
      Text.trim ("where " ++ words) := by
    have split : "where".toList ++ (' ' :: (words ++ [' '])) = "where ".toList ++ words ++ [' '] := by
      simp
    rw [split, Text.trim, Text.trim]
    exact Text.trimEnd_append_blanks (by decide) ("where ".toList ++ words)
  simp only [readRequirements, word, ends, Option.bind_eq_bind, Option.bind_some]
  rw [run, ← List.append_assoc, Text.before_append, trimmed]
  rfl

theorem readOptional_requirementClause {requirements : Option Text}
    (plain : ∀ words ∈ requirements, ∀ char ∈ words, char ∉ requirementMarks) (content : Text) :
    (readOptional readRequirements
        (requirementClause requirements ++ ' ' :: '\x7b' :: content)).1 =
        requirements.map (fun words => Text.trim ("where " ++ words)) ∧
      skipTrivia (readOptional readRequirements
        (requirementClause requirements ++ ' ' :: '\x7b' :: content)).2 = '\x7b' :: content := by
  have brace : skipTrivia ('\x7b' :: content) = '\x7b' :: content :=
    skipTrivia_of_token (by decide) (by decide) content
  cases requirements with
  | none =>
      have start : skipTrivia (' ' :: '\x7b' :: content) = '\x7b' :: content := by
        rw [skipTrivia_of_blank (by decide), brace]
      have none : readRequirements ('\x7b' :: content) = Option.none := rfl
      simp only [requirementClause, List.nil_append, readOptional, start, none]
      exact ⟨rfl, brace⟩
  | some words =>
      have start : skipTrivia (' ' :: ("where ".toList ++ words) ++ ' ' :: '\x7b' :: content) =
          "where".toList ++ ' ' :: (words ++ ' ' :: '\x7b' :: content) := by
        have split : ' ' :: ("where ".toList ++ words) ++ ' ' :: '\x7b' :: content =
            ' ' :: ("where".toList ++ ' ' :: (words ++ ' ' :: '\x7b' :: content)) := by simp
        rw [split, skipTrivia_of_blank (by decide)]
        exact skipTrivia_of_token (by decide) (by decide) _
      simp only [requirementClause, readOptional, start,
        readRequirements_clause (plain words rfl) content]
      exact ⟨rfl, brace⟩

end StyleMacros
