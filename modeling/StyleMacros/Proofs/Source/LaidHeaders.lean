import StyleMacros.Proofs.Source.Layout
import StyleMacros.Proofs.Source.RoundTrip

/-!
# Reading a header that is laid out

The tokens of a header are read one after the other, whatever the stretches between them are. So
the parts of a declaration depend on its tokens alone, and its body is what stands behind them.
-/

set_option autoImplicit false

namespace StyleMacros

variable {text reached : Text} {more : List HeaderToken}

section Tokens

variable {tail content : Text} {tokens : List HeaderToken}

/-! ## Single tokens -/

namespace Laid

theorem exists_cons {token : HeaderToken} (laid : Laid tail (token :: tokens) text) :
    ∃ stretch behind, text = token.text ++ (stretch ++ behind) ∧ token.Valid ∧
      token.Passes stretch ∧ (∀ char ∈ (stretch ++ behind).head?, token.Stops char) ∧
      Laid tail tokens behind := by
  cases laid with
  | cons valid passes stops later => exact ⟨_, _, rfl, valid, passes, stops, later⟩

section Braced

variable (laid : Laid ('\x7b' :: content) tokens text)

include laid

theorem ne_nil : text ≠ [] := by
  cases laid with
  | nil => exact List.cons_ne_nil _ _
  | cons valid => exact List.append_ne_nil_of_left_ne_nil valid.ne_nil _

theorem starts : skipTrivia text = text := by
  cases laid with
  | nil => exact skipTrivia_of_token (by decide) (by decide) content
  | cons valid => exact valid.starts _

theorem length_le : tokens.length ≤ text.length := by
  induction laid with
  | nil => exact Nat.zero_le _
  | cons valid _ _ _ inductionHypothesis =>
      have nonempty := List.length_pos_iff.mpr valid.ne_nil
      simp only [List.length_cons, List.length_append]
      omega

theorem skipTrivia_gap {stretch : Text} (gap : Gap stretch) : skipTrivia (stretch ++ text) = text :=
  (gap text).trans laid.starts

theorem length_le_of_skipTrivia (behind : skipTrivia reached = text) :
    tokens.length ≤ reached.length :=
  laid.length_le.trans (behind ▸ (skipTrivia_suffix reached).length_le)

end Braced

end Laid

theorem Laid.identifier? {letters : Text}
    (laid : Laid ('\x7b' :: content) (.word letters :: tokens) text) :
    ∃ reached behind, text.identifier? = some (letters, reached) ∧
      skipTrivia reached = behind ∧ Laid ('\x7b' :: content) tokens behind := by
  obtain ⟨stretch, behind, rfl, word, gap, stops, later⟩ := laid.exists_cons
  exact ⟨_, behind, Text.identifier?_append word stops,
    later.skipTrivia_gap gap, later⟩

theorem Laid.mark {char : Char} (laid : Laid ('\x7b' :: content) (.mark char :: tokens) text) :
    ∃ reached behind, text = char :: reached ∧ skipTrivia reached = behind ∧
      Laid ('\x7b' :: content) tokens behind := by
  obtain ⟨stretch, behind, rfl, -, gap, -, later⟩ := laid.exists_cons
  exact ⟨stretch ++ behind, behind, rfl, later.skipTrivia_gap gap, later⟩

theorem Laid.readDottedName {dotted : DottedName}
    (laid : Laid ('\x7b' :: content) (.path dotted :: tokens) text) :
    ∃ reached behind, StyleMacros.readDottedName text = some (dotted.text, reached) ∧
      skipTrivia reached = behind ∧ Laid ('\x7b' :: content) tokens behind := by
  obtain ⟨stretch, behind, rfl, -, gap, stops, later⟩ := laid.exists_cons
  refine ⟨stretch ++ behind, behind, ?_, later.skipTrivia_gap gap, later⟩
  cases same : stretch ++ behind with
  | nil => exact absurd (List.append_eq_nil_iff.mp same).2 later.ne_nil
  | cons head rest =>
      rw [same] at stops
      obtain ⟨mark, noDot⟩ := stops head rfl
      exact dotted.readDottedName_text mark noDot rest

/-! ## Modifiers and keyword -/

theorem Laid.readMany_modifiers {modifiers : List Modifier} {keyword : Keyword}
    (behind : skipTrivia reached = text)
    (laid : Laid ('\x7b' :: content)
      (modifiers.map (.word ·.text) ++ .word keyword.text :: more) text)
    {fuel : Nat} (enough : modifiers.length ≤ fuel) :
    ∃ next, (readMany readModifier fuel reached).1 = modifiers ∧
      skipTrivia (readMany readModifier fuel reached).2 = next ∧
      Laid ('\x7b' :: content) (.word keyword.text :: more) next := by
  induction modifiers generalizing reached text fuel with
  | nil =>
      obtain ⟨rest, _, word, -⟩ := laid.identifier?
      have stops := readModifier_of_keyword word
      have read : readMany readModifier fuel reached = ([], reached) := by
        cases fuel with
        | zero => rfl
        | succ fuel => simp only [readMany, behind, stops]
      rw [read]
      exact ⟨text, rfl, behind, laid⟩
  | cons first others inductionHypothesis =>
      cases fuel with
      | zero => simp at enough
      | succ fuel =>
          obtain ⟨rest, next, word, nextBehind, later⟩ := laid.identifier?
          have read := readModifier_of_identifier? word
          obtain ⟨last, words, lastBehind, lastLaid⟩ :=
            inductionHypothesis nextBehind later (Nat.le_of_succ_le_succ enough)
          refine ⟨last, ?_, ?_, lastLaid⟩
          · simp only [readMany, behind, read, words]
          · simp only [readMany, behind, read, lastBehind]

/-! ## Lists -/

variable {Item Element : Type}

def separatedTokens (itemTokens : Item → List HeaderToken) : List Item → List HeaderToken
  | [] => []
  | first :: others => itemTokens first ++ others.flatMap fun item => .mark ',' :: itemTokens item

/-- What the reader makes of the tokens of one item is the item's label. -/
def ReadsLaid (tail : Text) (read : Text → Option (Element × Text))
    (itemTokens : Item → List HeaderToken) (label : Element → Text) (name : Item → Text)
    (Ends : List HeaderToken → Prop) : Prop :=
  ∀ item more text, Ends more → Laid tail (itemTokens item ++ more) text →
    ∃ element reached behind, read text = some (element, reached) ∧ label element = name item ∧
      skipTrivia reached = behind ∧ Laid tail more behind

structure EndsList (tail : Text) (read : Text → Option (Element × Text))
    (Ends : List HeaderToken → Prop) (more : List HeaderToken) : Prop where
  ends : Ends more
  comma : ∀ others, Ends (.mark ',' :: others)
  stops : ∀ reached text fuel, skipTrivia reached = text → Laid tail more text →
    readFurther read fuel reached = ([], reached)

variable {read : Text → Option (Element × Text)} {itemTokens : Item → List HeaderToken}
  {label : Element → Text} {name : Item → Text} {Ends : List HeaderToken → Prop}

theorem EndsList.ends_further (list : EndsList tail read Ends more) (others : List Item) :
    Ends ((others.flatMap fun item => .mark ',' :: itemTokens item) ++ more) := by
  cases others with
  | nil => exact list.ends
  | cons first rest => exact list.comma _

theorem ReadsLaid.readFurther
    (reads : ReadsLaid ('\x7b' :: content) read itemTokens label name Ends)
    (list : EndsList ('\x7b' :: content) read Ends more) {others : List Item}
    (behind : skipTrivia reached = text)
    (laid : Laid ('\x7b' :: content)
      ((others.flatMap fun item => .mark ',' :: itemTokens item) ++ more) text)
    {fuel : Nat} (enough : others.length ≤ fuel) :
    ∃ elements rest next, StyleMacros.readFurther read fuel reached = (elements, rest) ∧
      elements.map label = others.map name ∧ skipTrivia rest = next ∧
      Laid ('\x7b' :: content) more next := by
  induction others generalizing reached text fuel with
  | nil => exact ⟨[], reached, text, list.stops reached text fuel behind laid, rfl, behind, laid⟩
  | cons first others inductionHypothesis =>
      cases fuel with
      | zero => simp at enough
      | succ fuel =>
          rw [List.flatMap_cons, List.append_assoc, List.cons_append] at laid
          obtain ⟨afterComma, start, rfl, startBehind, item⟩ := laid.mark
          obtain ⟨element, rest, next, found, labelled, nextBehind, later⟩ :=
            reads first _ start (list.ends_further others) item
          obtain ⟨elements, last, final, further, labels, finalBehind, finalLaid⟩ :=
            inductionHypothesis nextBehind later (Nat.le_of_succ_le_succ enough)
          refine ⟨element :: elements, last, final, ?_, ?_, finalBehind, finalLaid⟩
          · simp only [StyleMacros.readFurther, behind, startBehind, found, further]
          · rw [List.map_cons, List.map_cons, labelled, labels]

theorem ReadsLaid.readSeparated
    (reads : ReadsLaid ('\x7b' :: content) read itemTokens label name Ends)
    (list : EndsList ('\x7b' :: content) read Ends more) {items : List Item} (nonempty : items ≠ [])
    (laid : Laid ('\x7b' :: content) (separatedTokens itemTokens items ++ more) text) :
    ∃ elements rest next, StyleMacros.readSeparated read text = some (elements, rest) ∧
      elements.map label = items.map name ∧ skipTrivia rest = next ∧
      Laid ('\x7b' :: content) more next := by
  cases items with
  | nil => exact absurd rfl nonempty
  | cons first others =>
      rw [separatedTokens, List.append_assoc] at laid
      obtain ⟨element, rest, next, found, labelled, nextBehind, later⟩ :=
        reads first _ text (list.ends_further others) laid
      have enough : others.length ≤ rest.length := by
        have row := later.length_le_of_skipTrivia nextBehind
        have items := length_le_flatMap_cons others (.mark ',') itemTokens
        rw [List.length_append] at row
        omega
      obtain ⟨elements, last, final, further, labels, finalBehind, finalLaid⟩ :=
        reads.readFurther list nextBehind later enough
      refine ⟨element :: elements, last, final, ?_, ?_, finalBehind, finalLaid⟩
      · simp only [StyleMacros.readSeparated, found, Option.bind_eq_bind, Option.bind_some, further]
        rfl
      · rw [List.map_cons, List.map_cons, labelled, labels]

end Tokens

section Clauses

variable {content : Text}

/-! ## Generic parameters -/

structure HeaderParameter where
  name : Text
  constraint : Option Text

namespace HeaderParameter

def tokens (parameter : HeaderParameter) : List HeaderToken :=
  .word parameter.name ::
    (parameter.constraint.elim [] fun start => [.mark ':', .constraint start])

def Ends (more : List HeaderToken) : Prop :=
  ∃ char others, more = .mark char :: others ∧ (char = ',' ∨ char = '>')

theorem readsLaid : ReadsLaid ('\x7b' :: content) readGenericParameter tokens
    GenericParameter.name HeaderParameter.name Ends := by
  rintro ⟨name, constraint⟩ more text ⟨char, others, rfl, marks⟩ laid
  obtain ⟨reached, behind, word, behindName, later⟩ := laid.identifier?
  cases constraint with
  | none =>
      obtain ⟨rest, next, rfl, -, -⟩ := Laid.mark later
      refine ⟨⟨name, none⟩, char :: rest, char :: rest, ?_, rfl, later.starts, later⟩
      simp only [readGenericParameter, word, Option.bind_eq_bind, Option.bind_some, behindName]
      split
      · rename_i same
        rcases marks with rfl | rfl <;> cases same
      · rfl
  | some start =>
      obtain ⟨after, constrained, rfl, behindColon, bound⟩ := Laid.mark later
      obtain ⟨stretch, ended, rfl, ⟨nonempty, -⟩, runs, -, ending⟩ := bound.exists_cons
      obtain ⟨rest, next, rfl, -, -⟩ := Laid.mark ending
      have stops : Region.constraint.afterContent (char :: rest) = char :: rest := by
        rcases marks with rfl | rfl <;> exact Region.afterContent_of_none rfl rfl
      have passed : Region.constraint.afterContent (start ++ (stretch ++ char :: rest)) =
          char :: rest := by
        rw [← List.append_assoc]
        exact (runs _).trans stops
      have shorter : (char :: rest).length < (start ++ (stretch ++ char :: rest)).length := by
        have positive := List.length_pos_iff.mpr nonempty
        simp only [List.length_append]
        omega
      refine ⟨⟨name, some ((start ++ (stretch ++ char :: rest)).before (char :: rest)).trim⟩,
        char :: rest, char :: rest, ?_, rfl, ending.starts, ending⟩
      simp only [readGenericParameter, word, Option.bind_eq_bind, Option.bind_some, behindName,
        behindColon, readConstraint, HeaderToken.text, passed, shorter, if_true]
      rfl

end HeaderParameter

def closingTokens (finalComma : Bool) : List HeaderToken :=
  if finalComma then [.mark ',', .mark '>'] else [.mark '>']

theorem endsList_parameters (finalComma : Bool) (more : List HeaderToken) :
    EndsList ('\x7b' :: content) readGenericParameter HeaderParameter.Ends
      (closingTokens finalComma ++ more) where
  ends := by
    cases finalComma with
    | true => exact ⟨',', .mark '>' :: more, rfl, .inl rfl⟩
    | false => exact ⟨'>', more, rfl, .inr rfl⟩
  comma := fun others => ⟨',', others, rfl, .inl rfl⟩
  stops := by
    intro reached text fuel behind laid
    cases finalComma with
    | true =>
        obtain ⟨afterComma, closed, rfl, closedBehind, later⟩ := Laid.mark laid
        obtain ⟨rest, next, rfl, -, -⟩ := Laid.mark later
        have noWord : readGenericParameter ('>' :: rest) = none := by
          have start : isIdentifierStart '>' = false := by decide +kernel
          simp [readGenericParameter, Text.identifier?, start]
        cases fuel with
        | zero => rfl
        | succ fuel => simp only [StyleMacros.readFurther, behind, closedBehind, noWord]
    | false =>
        obtain ⟨rest, next, rfl, -, -⟩ := Laid.mark laid
        exact readFurther_of_noComma (by simp [behind]) fuel

theorem Laid.readGenericParameters {parameters : List HeaderParameter} (nonempty : parameters ≠ [])
    {finalComma : Bool}
    (laid : Laid ('\x7b' :: content) (.mark '<' :: (separatedTokens HeaderParameter.tokens parameters ++
      (closingTokens finalComma ++ more))) text) :
    ∃ elements reached behind,
      StyleMacros.readGenericParameters text = some (elements, reached) ∧
        elements.map GenericParameter.name = parameters.map HeaderParameter.name ∧
        skipTrivia reached = behind ∧ Laid ('\x7b' :: content) more behind := by
  obtain ⟨opened, inner, rfl, innerBehind, listed⟩ := Laid.mark laid
  obtain ⟨elements, rest, next, separated, names, nextBehind, closing⟩ :=
    HeaderParameter.readsLaid.readSeparated (endsList_parameters finalComma more) nonempty listed
  have closed : ∃ reached behind, afterFinalComma rest = '>' :: reached ∧
      skipTrivia reached = behind ∧ Laid ('\x7b' :: content) more behind := by
    cases finalComma with
    | true =>
        obtain ⟨afterComma, last, rfl, lastBehind, later⟩ := Laid.mark closing
        obtain ⟨reached, behind, rfl, found, final⟩ := Laid.mark later
        have skipped : afterFinalComma rest = '>' :: reached := by
          simp only [afterFinalComma, nextBehind, lastBehind]
        exact ⟨reached, behind, skipped, found, final⟩
    | false =>
        obtain ⟨reached, behind, rfl, found, final⟩ := Laid.mark closing
        have skipped : afterFinalComma rest = '>' :: reached := by
          rw [afterFinalComma, nextBehind]
          rfl
        exact ⟨reached, behind, skipped, found, final⟩
  obtain ⟨reached, behind, mark, found, final⟩ := closed
  refine ⟨elements, reached, behind, ?_, names, found, final⟩
  simp only [StyleMacros.readGenericParameters, innerBehind, separated, Option.bind_eq_bind,
    Option.bind_some, mark]
  rfl

/-! ## Inherited types -/

theorem skipTrivia_dropWhile (text : Text) :
    skipTrivia (text.dropWhile isTokenBlank) = skipTrivia text := by
  have blank : ∀ char ∈ text.takeWhile isTokenBlank, isTokenBlank char = true :=
    fun char member => List.mem_takeWhile_imp member
  rw [← skipTrivia_blanks_append blank, List.takeWhile_append_dropWhile]

/-- A further type, the requirements or the body stands behind an inherited type. -/
def EndsInherited (more : List HeaderToken) : Prop :=
  ∀ token ∈ more.head?, token = .where_ ∨ token = .mark ','

theorem Laid.head?_of_endsInherited (ends : EndsInherited more)
    (laid : Laid ('\x7b' :: content) more text) : text.head? ≠ some '&' := by
  cases laid with
  | nil => simp
  | cons =>
      rcases ends _ rfl with rfl | rfl <;> simp [HeaderToken.text]

theorem readsLaid_types : ReadsLaid ('\x7b' :: content) readTypeReference
    (fun type => [.inherited type]) id id EndsInherited := by
  intro type more text ends laid
  obtain ⟨stretch, behind, rfl, ⟨-, -, reads⟩, gap, stops, later⟩ := laid.exists_cons
  have reached := later.skipTrivia_gap gap
  refine ⟨type, stretch ++ behind, behind, reads _ ?_, rfl, reached, later⟩
  cases same : stretch ++ behind with
  | nil => exact absurd (List.append_eq_nil_iff.mp same).2 later.ne_nil
  | cons mark rest =>
      refine ⟨mark, rest, rfl, stops mark (same ▸ rfl), fun ampersand => ?_⟩
      have first := Laid.head?_of_endsInherited ends later
      obtain ⟨others, split⟩ := List.head?_eq_some_iff.mp ampersand
      have solid : skipTrivia ('&' :: others) = '&' :: others :=
        skipTrivia_of_token (by decide) (by decide) others
      rw [← reached, same, ← skipTrivia_dropWhile, split, solid] at first
      exact first rfl

def requirementTokens (requires : Bool) : List HeaderToken :=
  if requires then [.where_] else []

theorem endsList_types (requires : Bool) :
    EndsList ('\x7b' :: content) readTypeReference EndsInherited (requirementTokens requires) where
  ends := by cases requires <;> simp [EndsInherited, requirementTokens]
  comma := by simp [EndsInherited]
  stops := by
    intro reached text fuel behind laid
    apply readFurther_of_noComma
    rw [behind]
    cases requires <;> cases laid <;> simp [HeaderToken.text]

theorem Laid.readInheritance {types : List Text} (nonempty : types ≠ []) {requires : Bool}
    (laid : Laid ('\x7b' :: content) (.mark ':' ::
      (separatedTokens (fun type => [.inherited type]) types ++ requirementTokens requires)) text) :
    ∃ reached behind, StyleMacros.readInheritance text = some (types, reached) ∧
      skipTrivia reached = behind ∧
      Laid ('\x7b' :: content) (requirementTokens requires) behind := by
  obtain ⟨opened, inner, rfl, innerBehind, listed⟩ := Laid.mark laid
  obtain ⟨elements, reached, behind, separated, names, found, final⟩ :=
    readsLaid_types.readSeparated (endsList_types requires) nonempty listed
  rw [List.map_id, List.map_id] at names
  exact ⟨reached, behind, by rw [StyleMacros.readInheritance, innerBehind, separated, names], found,
    final⟩

/-! ## Requirements -/

theorem Laid.readRequirements (laid : Laid ('\x7b' :: content) [.where_] text) :
    ∃ requirements, StyleMacros.readRequirements text = some (requirements, '\x7b' :: content) := by
  obtain ⟨stretch, behind, rfl, -, runs, stops, later⟩ := laid.exists_cons
  cases later
  have word := Text.afterWord?_append (by decide +kernel : Text.isIdentifier "where" = true)
    stops
  have body : Region.requirements.afterContent ('\x7b' :: content) = '\x7b' :: content :=
    Region.afterContent_of_none rfl rfl
  have ends := (runs ('\x7b' :: content)).trans body
  refine ⟨(Text.before ("where" ++ (stretch ++ '\x7b' :: content)) ('\x7b' :: content)).trim, ?_⟩
  simp only [StyleMacros.readRequirements, HeaderToken.text, word, Option.bind_eq_bind,
    Option.bind_some, ends]
  rfl

/-! ## Clauses that may be missing -/

theorem readOptional_of_some {Part : Type} {read : Text → Option (Part × Text)} {part : Part}
    {rest : Text} (behind : skipTrivia reached = text) (found : read text = some (part, rest)) :
    readOptional read reached = (some part, rest) := by
  simp only [readOptional, behind, found]

theorem readOptional_of_none {Part : Type} {read : Text → Option (Part × Text)}
    (behind : skipTrivia reached = text) (missing : read text = none) :
    readOptional read reached = (none, text) := by
  simp only [readOptional, behind, missing]

def parameterTokens (parameters : List HeaderParameter) (finalComma : Bool) : List HeaderToken :=
  if parameters.isEmpty then []
  else .mark '<' :: (separatedTokens HeaderParameter.tokens parameters ++ closingTokens finalComma)

def inheritanceTokens (types : List Text) : List HeaderToken :=
  if types.isEmpty then []
  else .mark ':' :: separatedTokens (fun type => [.inherited type]) types

theorem Laid.readOptional_requirements {requires : Bool} (behind : skipTrivia reached = text)
    (laid : Laid ('\x7b' :: content) (requirementTokens requires) text) :
    ∃ requirements rest, readOptional StyleMacros.readRequirements reached = (requirements, rest) ∧
      skipTrivia rest = '\x7b' :: content := by
  have brace : skipTrivia ('\x7b' :: content) = '\x7b' :: content :=
    skipTrivia_of_token (by decide) (by decide) content
  cases requires with
  | true =>
      obtain ⟨requirements, found⟩ := Laid.readRequirements laid
      exact ⟨some requirements, _, readOptional_of_some behind found, brace⟩
  | false =>
      cases laid
      exact ⟨none, _, readOptional_of_none behind rfl, brace⟩

theorem Laid.readOptional_inheritance {types : List Text} {requires : Bool}
    (behind : skipTrivia reached = text)
    (laid : Laid ('\x7b' :: content) (inheritanceTokens types ++ requirementTokens requires) text) :
    ∃ inheritance rest next,
      readOptional StyleMacros.readInheritance reached = (inheritance, rest) ∧
      inheritance.getD [] = types ∧ skipTrivia rest = next ∧
      Laid ('\x7b' :: content) (requirementTokens requires) next := by
  cases types with
  | nil =>
      have missing : StyleMacros.readInheritance text = none := by
        cases requires <;> cases laid <;> rfl
      exact ⟨none, text, text, readOptional_of_none behind missing, rfl, laid.starts, laid⟩
  | cons first others =>
      obtain ⟨rest, next, found, restBehind, later⟩ :=
        Laid.readInheritance (List.cons_ne_nil _ _) laid
      exact ⟨some (first :: others), rest, next, readOptional_of_some behind found, rfl, restBehind,
        later⟩

theorem Laid.readOptional_parameters {parameters : List HeaderParameter} {finalComma : Bool}
    {types : List Text} {requires : Bool} (behind : skipTrivia reached = text)
    (laid : Laid ('\x7b' :: content) (parameterTokens parameters finalComma ++
      (inheritanceTokens types ++ requirementTokens requires)) text) :
    ∃ elements rest next,
      readOptional StyleMacros.readGenericParameters reached = (elements, rest) ∧
      (elements.getD []).map GenericParameter.name = parameters.map HeaderParameter.name ∧
      skipTrivia rest = next ∧
      Laid ('\x7b' :: content) (inheritanceTokens types ++ requirementTokens requires) next := by
  cases parameters with
  | nil =>
      have missing : StyleMacros.readGenericParameters text = none := by
        cases types <;> cases requires <;> cases laid <;> rfl
      exact ⟨none, text, text, readOptional_of_none behind missing, rfl, laid.starts, laid⟩
  | cons first others =>
      have listed : Laid ('\x7b' :: content) (.mark '<' ::
          (separatedTokens HeaderParameter.tokens (first :: others) ++ (closingTokens finalComma ++
            (inheritanceTokens types ++ requirementTokens requires)))) text := by
        rw [← List.append_assoc]
        exact laid
      obtain ⟨elements, rest, next, found, names, restBehind, later⟩ :=
        Laid.readGenericParameters (List.cons_ne_nil _ _) listed
      exact ⟨some elements, rest, next, readOptional_of_some behind found, names, restBehind, later⟩

/-! ## Headers -/

/-- The parts of a header, as far as its tokens tell them. -/
structure HeaderParts where
  modifiers : List Modifier
  keyword : Keyword
  name : DottedName
  parameters : List HeaderParameter
  /-- Whether a comma stands behind the last parameter. -/
  finalComma : Bool
  inheritance : List Text
  /-- Whether there are requirements. -/
  requires : Bool

namespace HeaderParts

variable (parts : HeaderParts)

def tokens : List HeaderToken :=
  parts.modifiers.map (.word ·.text) ++ .word parts.keyword.text :: .path parts.name ::
    (parameterTokens parts.parameters parts.finalComma ++
      (inheritanceTokens parts.inheritance ++ requirementTokens parts.requires))

structure Describes (declaration : SourceDeclaration) : Prop where
  modifiers : declaration.modifiers = parts.modifiers
  keyword : declaration.keyword = parts.keyword
  name : declaration.name = parts.name.text
  parameters : declaration.genericParameters.map GenericParameter.name =
    parts.parameters.map HeaderParameter.name
  inheritance : declaration.inheritance = parts.inheritance

/-- A header that is laid out in front of a body is read as its parts, and the body as what stands
between the braces behind it. -/
theorem readDeclaration {rest : Text} (laid : Laid ('\x7b' :: content) parts.tokens text)
    (closes : Region.body.finish? content = some rest) (total : Nat) :
    ∃ declaration, StyleMacros.readDeclaration total text = some (declaration, rest) ∧
      parts.Describes declaration ∧
      declaration.body = .between total content (Region.body.afterContent content) := by
  have enough : parts.modifiers.length ≤ text.length := by
    have row := laid.length_le
    simp only [tokens, List.length_append, List.length_map] at row
    omega
  obtain ⟨_, modifiers, keywordBehind, keywordLaid⟩ := laid.readMany_modifiers laid.starts enough
  obtain ⟨_, _, word, nameBehind, nameLaid⟩ := keywordLaid.identifier?
  obtain ⟨_, _, name, clausesBehind, clauses⟩ := nameLaid.readDottedName
  obtain ⟨elements, _, _, parameters, names, inheritanceBehind, inherited⟩ :=
    clauses.readOptional_parameters clausesBehind
  obtain ⟨types, _, _, inheritance, listed, requirementsBehind, required⟩ :=
    inherited.readOptional_inheritance inheritanceBehind
  obtain ⟨requirements, _, requirementsRead, bodyBehind⟩ :=
    required.readOptional_requirements requirementsBehind
  have keyword := readKeyword_of_identifier? word
  have body : readBody total ('\x7b' :: content) =
      some (.between total content (Region.body.afterContent content), rest) := by
    simp only [readBody, closes, Option.bind_eq_bind, Option.bind_some]
    rfl
  refine ⟨⟨parts.modifiers, parts.keyword, parts.name.text, elements.getD [], types.getD [],
    requirements, .between total content (Region.body.afterContent content),
    .between total text rest⟩, ?_, ⟨rfl, rfl, rfl, names, listed⟩, rfl⟩
  simp only [StyleMacros.readDeclaration, modifiers, keywordBehind, keyword, nameBehind, name,
    parameters, inheritance, requirementsRead, bodyBehind, body, Option.bind_eq_bind,
    Option.bind_some]
  rfl

end HeaderParts

end Clauses

end StyleMacros
