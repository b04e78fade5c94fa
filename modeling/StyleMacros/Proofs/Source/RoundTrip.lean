import StyleMacros.Source.Site
import StyleMacros.Proofs.Source.Clauses
import StyleMacros.Proofs.Text.Offsets

/-!
# Reading undoes writing

A declaration written out from its parts is read back as these parts, with the spans of its body
and of the whole, whatever stands behind it. The body goes up to its own brace, whatever brackets
stand in its comments and strings.
-/

set_option autoImplicit false

namespace StyleMacros

/-! ## Modifiers and keyword -/

theorem Modifier.text_isIdentifier (modifier : Modifier) : modifier.text.isIdentifier = true := by
  cases modifier with
  | access level => cases level <;> decide +kernel
  | final => decide +kernel
  | indirect => decide +kernel
  | nonisolated => decide +kernel

theorem Modifier.ofText?_text (modifier : Modifier) :
    Modifier.ofText? modifier.text = some modifier := by
  cases modifier with
  | access level => cases level <;> decide
  | final => decide
  | indirect => decide
  | nonisolated => decide

theorem Keyword.text_isIdentifier (keyword : Keyword) : keyword.text.isIdentifier = true := by
  cases keyword <;> decide +kernel

theorem Keyword.ofText?_text (keyword : Keyword) : Keyword.ofText? keyword.text = some keyword := by
  cases keyword <;> decide

theorem Modifier.ofText?_keyword (keyword : Keyword) : Modifier.ofText? keyword.text = none := by
  cases keyword <;> decide

section Words

variable {text rest : Text} {modifier : Modifier} {keyword : Keyword}

theorem readModifier_of_identifier? (word : text.identifier? = some (modifier.text, rest)) :
    readModifier text = some (modifier, rest) := by
  simp only [readModifier, word, Option.bind_eq_bind, Option.bind_some, modifier.ofText?_text]
  rfl

theorem readModifier_of_keyword (word : text.identifier? = some (keyword.text, rest)) :
    readModifier text = none := by
  simp only [readModifier, word, Option.bind_eq_bind, Option.bind_some, Modifier.ofText?_keyword]
  rfl

theorem readKeyword_of_identifier? (word : text.identifier? = some (keyword.text, rest)) :
    readKeyword text = some (keyword, rest) := by
  simp only [readKeyword, word, Option.bind_eq_bind, Option.bind_some, keyword.ofText?_text]
  rfl

end Words

theorem readModifier_text (modifier : Modifier) (rest : Text) :
    readModifier (modifier.text ++ ' ' :: rest) = some (modifier, ' ' :: rest) :=
  readModifier_of_identifier? <| Text.identifier?_append modifier.text_isIdentifier
    (Text.endsWord_of_punctuation (by decide : ' ' ∈ punctuation) rest)

theorem readModifier_keyword (keyword : Keyword) (rest : Text) :
    readModifier (keyword.text ++ ' ' :: rest) = none :=
  readModifier_of_keyword <| Text.identifier?_append keyword.text_isIdentifier
    (Text.endsWord_of_punctuation (by decide : ' ' ∈ punctuation) rest)

theorem readKeyword_text (keyword : Keyword) (rest : Text) :
    readKeyword (keyword.text ++ ' ' :: rest) = some (keyword, ' ' :: rest) :=
  readKeyword_of_identifier? <| Text.identifier?_append keyword.text_isIdentifier
    (Text.endsWord_of_punctuation (by decide : ' ' ∈ punctuation) rest)

def modifierWords (modifiers : List Modifier) : Text :=
  modifiers.flatMap fun modifier => modifier.text ++ [' ']

theorem modifierWords_cons_append (first : Modifier) (others : List Modifier) (rest : Text) :
    modifierWords (first :: others) ++ rest =
      first.text ++ ' ' :: (modifierWords others ++ rest) := by
  simp [modifierWords]

theorem skipTrivia_modifierWords (modifiers : List Modifier) (keyword : Keyword) (rest : Text) :
    skipTrivia (modifierWords modifiers ++ (keyword.text ++ ' ' :: rest)) =
      modifierWords modifiers ++ (keyword.text ++ ' ' :: rest) := by
  cases modifiers with
  | nil => exact skipTrivia_append_of_isIdentifier keyword.text_isIdentifier _
  | cons first others =>
      rw [modifierWords_cons_append]
      exact skipTrivia_append_of_isIdentifier first.text_isIdentifier _

theorem readMany_modifierWords (modifiers : List Modifier) (keyword : Keyword) (rest : Text)
    {text : Text}
    (start : skipTrivia text = modifierWords modifiers ++ (keyword.text ++ ' ' :: rest))
    {fuel : Nat} (enough : modifiers.length ≤ fuel) :
    (readMany readModifier fuel text).1 = modifiers ∧
      skipTrivia (readMany readModifier fuel text).2 = keyword.text ++ ' ' :: rest := by
  induction modifiers generalizing fuel text with
  | nil =>
      cases fuel with
      | zero => exact ⟨rfl, start⟩
      | succ fuel =>
          have stops : readModifier (skipTrivia text) = none :=
            start ▸ readModifier_keyword keyword rest
          rw [readMany, stops]
          exact ⟨rfl, start⟩
  | cons first others inductionHypothesis =>
      cases fuel with
      | zero => simp at enough
      | succ fuel =>
          rw [modifierWords_cons_append] at start
          have read : readModifier (skipTrivia text) =
              some (first, ' ' :: (modifierWords others ++ (keyword.text ++ ' ' :: rest))) :=
            start ▸ readModifier_text first _
          have next : skipTrivia (' ' :: (modifierWords others ++ (keyword.text ++ ' ' :: rest))) =
              modifierWords others ++ (keyword.text ++ ' ' :: rest) := by
            rw [skipTrivia_of_blank (by decide)]
            exact skipTrivia_modifierWords others keyword rest
          obtain ⟨words, behind⟩ := inductionHypothesis next (Nat.le_of_succ_le_succ enough)
          rw [readMany, read]
          exact ⟨congrArg (first :: ·) words, behind⟩

theorem length_le_modifierWords (modifiers : List Modifier) :
    modifiers.length ≤ (modifierWords modifiers).length := by
  induction modifiers with
  | nil => exact Nat.le_refl _
  | cons first others inductionHypothesis =>
      have split := modifierWords_cons_append first others []
      simp only [List.append_nil] at split
      rw [split, List.length_append, List.length_cons, List.length_cons]
      omega

/-! ## Bodies -/

theorem readBody_balanced {body : Text} (balanced : Balanced body) (total : Nat) (behind : Text) :
    readBody total ('\x7b' :: (body ++ '\x7d' :: behind)) =
      some (.between total (body ++ '\x7d' :: behind) ('\x7d' :: behind), behind) := by
  have nests : Region.body.Nests := trivial
  have ends : Region.body.afterContent (body ++ '\x7d' :: behind) = '\x7d' :: behind :=
    (balanced.afterContent nests (by simp)).trans (Region.afterContent_of_none rfl rfl)
  have closes : Region.body.finish? (body ++ '\x7d' :: behind) = some behind :=
    Region.finish?_of_afterContent rfl ends
  simp only [readBody, closes, ends, Option.bind_eq_bind, Option.bind_some]
  rfl

/-! ## Declarations -/

/-- The parts of a declaration that is written out. -/
structure WrittenDeclaration where
  modifiers : List Modifier
  keyword : Keyword
  name : DottedName
  parameters : List WrittenParameter
  inheritance : List DottedName
  requirements : Option Text
  body : Text
  unqualified : ∀ path ∈ inheritance, path.text ∉ typeQualifiers
  plain : ∀ words ∈ requirements, ∀ char ∈ words, char ∉ requirementMarks
  balanced : Balanced body

namespace WrittenDeclaration

variable (written : WrittenDeclaration)

def clauses : Text :=
  parameterClause written.parameters ++ (inheritanceClause written.inheritance ++
    (requirementClause written.requirements ++ [' ', '\x7b']))

def header : Text :=
  modifierWords written.modifiers ++
    (written.keyword.text ++ ' ' :: (written.name.text ++ written.clauses))

def text : Text :=
  written.header ++ (written.body ++ ['\x7d'])

def declaration (offset : Nat) : SourceDeclaration where
  modifiers := written.modifiers
  keyword := written.keyword
  name := written.name.text
  genericParameters := written.parameters.map WrittenParameter.value
  inheritance := written.inheritance.map DottedName.text
  requirements := written.requirements.map fun words => Text.trim ("where " ++ words)
  body := ⟨offset + written.header.size, offset + written.header.size + written.body.size⟩
  span := ⟨offset, offset + written.text.size⟩

theorem text_append (behind : Text) :
    written.text ++ behind = modifierWords written.modifiers ++ (written.keyword.text ++
      ' ' :: (written.name.text ++ (parameterClause written.parameters ++
        (inheritanceClause written.inheritance ++ (requirementClause written.requirements ++
          ' ' :: '\x7b' :: (written.body ++ '\x7d' :: behind)))))) := by
  simp [text, header, clauses]

theorem head?_skipTrivia_inheritanceClause {tail : Text} (ends : EndsHeader tail) :
    (skipTrivia (inheritanceClause written.inheritance ++ tail)).head? ≠ some '<' := by
  by_cases empty : written.inheritance = []
  · obtain ⟨head, rest, exact, marks⟩ := ends.skipTrivia
    rw [empty, inheritanceClause, List.isEmpty_nil, if_pos rfl, List.nil_append, exact]
    rcases marks with rfl | rfl <;> simp
  · have clause : inheritanceClause written.inheritance ++ tail =
        ':' :: ' ' :: (listed DottedName.text written.inheritance ++ tail) := by
      simp [inheritanceClause, empty]
    rw [clause, skipTrivia_of_token (by decide) (by decide)]
    simp

/-- A mark stands behind the name that does not go on with it. -/
theorem exists_mark_clauses {tail : Text} (ends : EndsHeader tail) :
    ∃ mark rest, parameterClause written.parameters ++
        (inheritanceClause written.inheritance ++ tail) = mark :: rest ∧
      mark ∈ punctuation ∧ mark ≠ '.' := by
  by_cases noParameters : written.parameters = []
  · by_cases noTypes : written.inheritance = []
    · obtain ⟨head, rest, exact, _⟩ := ends
      refine ⟨' ', head :: rest, ?_, by decide, by decide⟩
      simp [parameterClause, inheritanceClause, noParameters, noTypes, exact]
    · refine ⟨':', ' ' :: (listed DottedName.text written.inheritance ++ tail), ?_, by decide,
        by decide⟩
      simp [parameterClause, inheritanceClause, noParameters, noTypes]
  · refine ⟨'<', listed WrittenParameter.text written.parameters ++ '>' ::
      (inheritanceClause written.inheritance ++ tail), ?_, by decide, by decide⟩
    simp [parameterClause, noParameters]

/-- A written declaration is read back from in front of any text. -/
theorem readDeclaration_text (offset : Nat) (behind : Text) :
    readDeclaration (offset + (written.text ++ behind).size) (written.text ++ behind) =
      some (written.declaration offset, behind) := by
  generalize total_eq : offset + (written.text ++ behind).size = total
  have headerEnds := endsHeader_requirementClause written.requirements
    (written.body ++ '\x7d' :: behind)
  have enough : written.modifiers.length ≤ (written.text ++ behind).length := by
    have length := length_le_modifierWords written.modifiers
    rw [text_append, List.length_append]
    omega
  have start : skipTrivia (written.text ++ behind) = modifierWords written.modifiers ++
      (written.keyword.text ++ ' ' :: (written.name.text ++ (parameterClause written.parameters ++
        (inheritanceClause written.inheritance ++ (requirementClause written.requirements ++
          ' ' :: '\x7b' :: (written.body ++ '\x7d' :: behind)))))) := by
    rw [text_append]
    exact skipTrivia_modifierWords _ _ _
  obtain ⟨modifiers, keywordStart⟩ := readMany_modifierWords written.modifiers written.keyword _
    start enough
  obtain ⟨mark, rest, named, stops, noDot⟩ := written.exists_mark_clauses headerEnds
  have name := written.name.readDottedName_text stops noDot rest
  have nameStart : skipTrivia (' ' :: (written.name.text ++ mark :: rest)) =
      written.name.text ++ mark :: rest := by
    rw [skipTrivia_of_blank (by decide)]
    exact written.name.skipTrivia_text _
  obtain ⟨parameters, parametersEnd⟩ := readOptional_parameterClause written.parameters
    (written.head?_skipTrivia_inheritanceClause headerEnds)
  obtain ⟨inherited, inheritedEnd⟩ := readOptional_inheritanceClause written.unqualified headerEnds
  obtain ⟨required, requiredEnd⟩ := readOptional_requirementClause written.plain
    (written.body ++ '\x7d' :: behind)
  have body := readBody_balanced written.balanced total behind
  rw [named] at parameters parametersEnd keywordStart
  rw [readOptional_congr parametersEnd.symm] at inherited inheritedEnd
  rw [readOptional_congr inheritedEnd.symm] at required requiredEnd
  have bodySpan : Span.between total (written.body ++ '\x7d' :: behind) ('\x7d' :: behind) =
      (written.declaration offset).body := by
    simp only [Span.between, declaration, Span.mk.injEq, ← total_eq, text, Text.size_append,
      Text.size_cons, Text.size_nil]
    omega
  have span : Span.between total (written.text ++ behind) behind =
      (written.declaration offset).span := by
    simp only [Span.between, declaration, Span.mk.injEq, ← total_eq, Text.size_append]
    omega
  unfold readDeclaration
  simp only [modifiers, keywordStart, readKeyword_text, nameStart, name, parameters, inherited,
    required, requiredEnd, body, bodySpan, span, Option.bind_eq_bind, Option.bind_some]
  rfl

/-! ## The annotated declaration -/

def annotationLine : Text :=
  "@UIComponent\n"

def site : Site where
  attributes := [⟨"UIComponent", none, false, ⟨0, 12⟩⟩]
  target := .declaration (written.declaration annotationLine.size)
  span := ⟨0, annotationLine.size + written.text.size⟩

theorem exists_head : ∃ head rest, written.text = head :: rest ∧
    isIdentifierContinue head = true := by
  have word (name : Text) (whole : name.isIdentifier = true) (rest : Text) :
      ∃ head others, name ++ rest = head :: others ∧ isIdentifierContinue head = true := by
    cases name with
    | nil => simp [Text.isIdentifier] at whole
    | cons head others =>
        exact ⟨head, others ++ rest, rfl,
          Text.isIdentifierContinue_of_mem whole List.mem_cons_self⟩
  have split := written.text_append []
  rw [List.append_nil] at split
  rw [split]
  cases written.modifiers with
  | nil => exact word _ written.keyword.text_isIdentifier _
  | cons first others =>
      rw [modifierWords_cons_append]
      exact word _ first.text_isIdentifier _

theorem readAttribute_text (total : Nat) (behind : Text) :
    readAttribute total (written.text ++ behind) = none := by
  obtain ⟨head, rest, exact, letter⟩ := written.exists_head
  have noMark := ne_of_isIdentifierContinue letter
    (by decide +kernel : isIdentifierContinue '@' = false)
  rw [exact]
  exact readAttribute_of_noMark noMark total (rest ++ behind)

theorem skipTrivia_text {lead : Text} (blank : ∀ char ∈ lead, isTokenBlank char = true)
    (behind : Text) : skipTrivia (lead ++ (written.text ++ behind)) = written.text ++ behind := by
  rw [skipTrivia_blanks_append blank, text_append]
  exact skipTrivia_modifierWords _ _ _

/-- One attribute that names a macro, blanks and a declaration make a site, whatever stands
behind. -/
theorem readSite_behind_attribute (behind : Text) {front lead : Text} {used : Attribute}
    (blank : ∀ char ∈ lead, isTokenBlank char = true) (named : used.macroName?.isSome = true)
    (read : readAttribute (front ++ (lead ++ (written.text ++ behind))).size
      (front ++ (lead ++ (written.text ++ behind))) =
        some (used, lead ++ (written.text ++ behind))) :
    readSite (front ++ (lead ++ (written.text ++ behind))).size
        (front ++ (lead ++ (written.text ++ behind))) =
      some (⟨[used], .declaration (written.declaration (front ++ lead).size),
        ⟨0, (front ++ (lead ++ written.text)).size⟩⟩, behind) := by
  have start := written.skipTrivia_text blank behind
  have single (total fuel : Nat) : readMany (readAttribute total) fuel
      (lead ++ (written.text ++ behind)) = ([], lead ++ (written.text ++ behind)) := by
    cases fuel with
    | zero => rfl
    | succ fuel => simp only [readMany, start, readAttribute_text]
  have target := written.readDeclaration_text (front ++ lead).size behind
  rw [← Text.size_append, List.append_assoc] at target
  have span : Span.between (front ++ (lead ++ (written.text ++ behind))).size
      (front ++ (lead ++ (written.text ++ behind))) behind =
        ⟨0, (front ++ (lead ++ written.text)).size⟩ := by
    simp only [Span.between, Text.size_append, Span.mk.injEq]
    omega
  simp only [readSite, read, single, start, readTarget, target, List.any_cons, List.any_nil, named,
    Bool.or_false, if_true, span]

theorem readAttribute_annotationLine (rest : Text) :
    readAttribute (annotationLine ++ rest).size (annotationLine ++ rest) =
      some (⟨"UIComponent", none, false, ⟨0, 12⟩⟩, '\n' :: rest) := by
  have read : Text.identifier? ("UIComponent".toList ++ '\n' :: rest) =
      some ("UIComponent".toList, '\n' :: rest) :=
    Text.identifier?_append (by decide +kernel) (Text.endsWord_of_punctuation (by decide) rest)
  have span : Span.between (annotationLine ++ rest).size (annotationLine ++ rest) ('\n' :: rest) =
      ⟨0, 12⟩ := by
    have size : annotationLine.size = 13 := by decide
    simp only [Span.between, Text.size_append, Text.size_cons, Span.mk.injEq, size]
    have feed : '\n'.utf8Size = 1 := by decide
    omega
  have split : annotationLine ++ rest = '@' :: ("UIComponent".toList ++ '\n' :: rest) := by
    have line : annotationLine = '@' :: ("UIComponent".toList ++ ['\n']) := by decide
    rw [line, List.cons_append, List.append_assoc]
    rfl
  have plain : opensArguments ('\n' :: rest) = false := by simp [opensArguments, isInlineBlank]
  rw [split] at span ⊢
  simp only [readAttribute, read, Option.bind_eq_bind, Option.bind_some, readArguments, plain, span]
  rfl

theorem readSite_written (behind : Text) :
    readSite (annotationLine ++ (written.text ++ behind)).size
        (annotationLine ++ (written.text ++ behind)) = some (written.site, behind) := by
  have line : annotationLine = "@UIComponent".toList ++ ['\n'] := by decide
  have blank : ∀ char ∈ ['\n'], isTokenBlank char = true := by decide +kernel
  have read := readAttribute_annotationLine (written.text ++ behind)
  rw [line, List.append_assoc] at read ⊢
  have size : Text.size ("@UIComponent".toList ++ (['\n'] ++ written.text)) =
      annotationLine.size + written.text.size := by
    rw [← List.append_assoc, ← line, Text.size_append]
  rw [written.readSite_behind_attribute behind blank (by decide +kernel) read, size, ← line]
  rfl

/-- An annotated declaration that is written out is the one site of its text. All its parts are
those that were written, and its body is what was written between the braces. -/
theorem readSites_written :
    readSites (annotationLine ++ written.text) = [written.site] ∧
      (written.declaration annotationLine.size).body.text (annotationLine ++ written.text) =
        written.body := by
  constructor
  · have start : skipTrivia (annotationLine ++ written.text) = annotationLine ++ written.text :=
      skipTrivia_of_token (by decide) (by decide) _
    have read := written.readSite_written []
    rw [List.append_nil] at read
    rw [readSites_eq_sitesFrom, sitesFrom_of_readSite start read]
    rfl
  · have split : annotationLine ++ written.text =
        (annotationLine ++ written.header) ++ (written.body ++ ['\x7d']) := by
      simp [text]
    rw [split]
    apply Text.slice_append <;> simp [declaration]

/-- A declaration with every clause, and with braces in a string and a comment of its body. -/
def genericCard : WrittenDeclaration where
  modifiers := [.access .public_, .final]
  keyword := .class_
  name := ⟨"Views", ["Card"], by decide +kernel⟩
  parameters :=
    [⟨"Label", some ⟨"SwiftUI", ["View"], by decide +kernel⟩, by decide +kernel⟩,
      ⟨"Icon", none, by decide +kernel⟩]
  inheritance := [⟨"Base", [], by decide +kernel⟩, ⟨"anyView", [], by decide +kernel⟩]
  requirements := some "Label: Equatable"
  body := ['"', '\x7d', '"', '(', '/', '*', '\x7b', '*', '/', ')']
  unqualified := by decide +kernel
  plain := by decide
  balanced := .lexeme (.literal (.char (by decide) .nil)) <|
    .group .round (.lexeme (.blockComment (.char (by decide) (by decide) .nil)) .nil) .nil

example : genericCard.text =
    ("public final class Views.Card<Label: SwiftUI.View, Icon>: Base, anyView where " ++
      "Label: Equatable \x7b\"\x7d\"(/*\x7b*/)\x7d" : String).toList := by
  decide +kernel

theorem readSites_genericCard :
    readSites (annotationLine ++ genericCard.text) = [genericCard.site] ∧
      (genericCard.declaration annotationLine.size).body.text
        (annotationLine ++ genericCard.text) = genericCard.body :=
  genericCard.readSites_written

end WrittenDeclaration

end StyleMacros
