import StyleMacros.Proofs.Source.Literals
import StyleMacros.Proofs.Source.RoundTrip

/-!
# Attributes written out

A macro attribute with one literal argument, written in front of a declaration, is read back and
gives the invocation it was written for: the same macro, the same label and the same value.
-/

set_option autoImplicit false

namespace StyleMacros

theorem MacroName.text_isIdentifier (name : MacroName) : name.text.isIdentifier = true := by
  cases name <;> decide +kernel

theorem MacroName.ofText?_text (name : MacroName) : MacroName.ofText? name.text = some name := by
  cases name <;> decide

/-- A macro attribute with one argument, as it is written in front of a declaration. -/
structure WrittenAttribute where
  name : MacroName
  label : Option Text
  value : ArgumentValue
  /-- Whether a comma stands behind the last element of a list. -/
  finalComma : Bool
  /-- The blanks behind each mark in the attribute. -/
  gap : Text
  /-- The blanks behind the attribute. -/
  lead : Text
  word : ∀ text ∈ label, text.isIdentifier = true
  gapBlank : ∀ char ∈ gap, isTokenBlank char = true
  leadBlank : ∀ char ∈ lead, isTokenBlank char = true

namespace WrittenAttribute

variable (written : WrittenAttribute)

def valueText : Text :=
  valueLiteral written.gap written.finalComma written.value

def argumentText : Text :=
  (written.label.elim [] fun label => label ++ ':' :: written.gap) ++ written.valueText

def opening : Text :=
  '@' :: (written.name.text ++ '(' :: written.gap)

def text : Text :=
  written.opening ++ (written.argumentText ++ [')'])

def argumentSpan (offset : Nat) : Span :=
  ⟨offset + written.opening.size, offset + written.opening.size + written.argumentText.size⟩

def span (offset : Nat) : Span :=
  ⟨offset, offset + written.text.size⟩

def tree (offset : Nat) (expression : Expression) : Attribute :=
  ⟨written.name.text, some [⟨written.label, some expression, written.argumentSpan offset⟩], false,
    written.span offset⟩

def invocation (offset : Nat) : Invocation :=
  ⟨written.name, [⟨written.label, written.value, written.argumentSpan offset⟩],
    written.span offset⟩

theorem invocation_tree (offset : Nat) {expression : Expression}
    (denotes : expression.Denotes written.value) :
    (written.tree offset expression).invocation written.name =
      .ok (written.invocation offset) := by
  have argument : SourceArgument.literal written.name
      ⟨written.label, some expression, written.argumentSpan offset⟩ =
      .ok ⟨written.label, written.value, written.argumentSpan offset⟩ := by
    simp only [SourceArgument.literal, denotes.literal]
    rfl
  simp only [Attribute.invocation, tree, Option.getD_some, List.mapM_cons, argument]
  rfl

/-! ## Reading the argument -/

theorem skipTrivia_valueText (rest : Text) :
    skipTrivia (written.valueText ++ rest) = written.valueText ++ rest := by
  obtain ⟨head, others, exact, marks⟩ :=
    exists_head_valueLiteral written.gap written.finalComma written.value
  rw [valueText, exact]
  rcases marks with rfl | rfl <;> exact skipTrivia_of_token (by decide) (by decide) _

theorem identifier?_valueText (rest : Text) :
    Text.identifier? (written.valueText ++ rest) = none := by
  obtain ⟨head, others, exact, marks⟩ :=
    exists_head_valueLiteral written.gap written.finalComma written.value
  have noWord : isIdentifierStart '"' = false ∧ isIdentifierStart '[' = false := by decide +kernel
  rw [valueText, exact, List.cons_append]
  rcases marks with rfl | rfl <;> simp [Text.identifier?, noWord]

theorem skipTrivia_argumentText (rest : Text) :
    skipTrivia (written.argumentText ++ rest) = written.argumentText ++ rest := by
  cases labelled : written.label with
  | none =>
      simp only [argumentText, labelled, Option.elim_none, List.nil_append]
      exact written.skipTrivia_valueText rest
  | some label =>
      simp only [argumentText, labelled, Option.elim_some, List.append_assoc]
      exact skipTrivia_append_of_isIdentifier (written.word label labelled) _

variable (total : Nat)

theorem readArgument_argumentText (rest : Text) :
    ∃ expression, readArgument total (written.argumentText ++ ')' :: rest) =
        some (⟨written.label, some expression,
          .between total (written.argumentText ++ ')' :: rest) (')' :: rest)⟩, ')' :: rest) ∧
      expression.Denotes written.value := by
  obtain ⟨expression, value, denotes⟩ := readExpression_valueLiteral total
    written.gapBlank written.value written.finalComma (by decide : ')' ∈ [',', ')', ']']) rest
  rw [← valueText] at value
  refine ⟨expression, ?_, denotes⟩
  cases labelled : written.label with
  | none =>
      have unlabelled : readLabelledArgument total (written.valueText ++ ')' :: rest) = none := by
        simp only [readLabelledArgument, identifier?_valueText, Option.bind_eq_bind,
          Option.bind_none]
      simp only [argumentText, labelled, Option.elim_none, List.nil_append, readArgument,
        unlabelled, readBareArgument, value, Option.bind_eq_bind, Option.bind_some]
      rfl
  | some label =>
      have read := Text.identifier?_append (written.word label labelled)
        (Text.endsWord_of_punctuation (by decide : ':' ∈ punctuation)
          (written.gap ++ (written.valueText ++ ')' :: rest)))
      have split : written.argumentText ++ ')' :: rest =
          label ++ ':' :: (written.gap ++ (written.valueText ++ ')' :: rest)) := by
        simp [argumentText, labelled]
      rw [split]
      simp only [readArgument, readLabelledArgument, read, Option.bind_eq_bind, Option.bind_some,
        skipTrivia_of_token (by decide : isTokenBlank ':' = false) (by decide),
        skipTrivia_blanks_append written.gapBlank, skipTrivia_valueText, value]
      rfl

theorem readArguments_text (rest : Text) :
    ∃ expression, readArguments total ('(' :: (written.gap ++ (written.argumentText ++ ')' :: rest))) =
        some ([⟨written.label, some expression,
          .between total (written.argumentText ++ ')' :: rest) (')' :: rest)⟩], rest) ∧
      expression.Denotes written.value := by
  obtain ⟨expression, argument, denotes⟩ := written.readArgument_argumentText total rest
  have closing : skipTrivia (')' :: rest) = ')' :: rest :=
    skipTrivia_of_token (by decide) (by decide) rest
  have single : readFurther (readArgument total) (')' :: rest).length (')' :: rest) =
      ([], ')' :: rest) := by
    rw [List.length_cons, readFurther, closing]
    rfl
  refine ⟨expression, ?_, denotes⟩
  simp only [readArguments, readClosedList, skipTrivia_blanks_append written.gapBlank,
    skipTrivia_argumentText, readSeparated, argument, Option.bind_eq_bind, Option.bind_some,
    single, afterFinalComma]
  rfl

/-! ## Reading the attribute -/

theorem readAttribute_text (offset : Nat) (behind : Text) :
    ∃ expression, readAttribute (offset + (written.text ++ behind).size) (written.text ++ behind) =
        some (written.tree offset expression, behind) ∧
      expression.Denotes written.value := by
  generalize total_eq : offset + (written.text ++ behind).size = total
  obtain ⟨expression, arguments, denotes⟩ := written.readArguments_text total behind
  have named := Text.identifier?_append written.name.text_isIdentifier
    (Text.endsWord_of_punctuation (by decide : '(' ∈ punctuation)
      (written.gap ++ (written.argumentText ++ ')' :: behind)))
  have split : written.text ++ behind = '@' :: (written.name.text ++
      '(' :: (written.gap ++ (written.argumentText ++ ')' :: behind))) := by
    simp [text, opening]
  have argumentSpan : Span.between total (written.argumentText ++ ')' :: behind) (')' :: behind) =
      written.argumentSpan offset := by
    simp only [Span.between, WrittenAttribute.argumentSpan, Span.mk.injEq, ← total_eq, text,
      Text.size_append, Text.size_cons, Text.size_nil]
    omega
  have span : Span.between total (written.text ++ behind) behind = written.span offset := by
    simp only [Span.between, WrittenAttribute.span, Span.mk.injEq, ← total_eq, Text.size_append]
    omega
  refine ⟨expression, ?_, denotes⟩
  rw [split] at span ⊢
  simp only [readAttribute, named, arguments, argumentSpan, span, Option.bind_eq_bind,
    Option.bind_some]
  rfl

end WrittenAttribute

/-! ## The attribute in front of a protocol -/

def emptyProtocol : WrittenDeclaration where
  modifiers := []
  keyword := .protocol
  name := ⟨"P", [], by decide +kernel⟩
  parameters := []
  inheritance := []
  requirements := none
  body := []
  unqualified := by simp
  plain := by simp
  balanced := .nil

theorem emptyProtocol_text : emptyProtocol.text = "protocol P \x7b\x7d".toList := by
  decide +kernel

namespace WrittenAttribute

variable (written : WrittenAttribute)

def source : Text :=
  written.text ++ (written.lead ++ "protocol P \x7b\x7d")

def annotated : AnnotatedDeclaration where
  declaration := ⟨"P", .protocol, [], none,
    ⟨(written.text ++ written.lead).size, (written.text ++ written.lead).size + 13⟩⟩
  invocations := [written.invocation 0]

theorem exists_readSite_source : ∃ expression,
    readSite written.source.size written.source =
        some (⟨[written.tree 0 expression],
          .declaration (emptyProtocol.declaration (written.text ++ written.lead).size),
          ⟨0, written.source.size⟩⟩, []) ∧
      expression.Denotes written.value := by
  obtain ⟨expression, read, denotes⟩ := written.readAttribute_text 0 (written.lead ++ emptyProtocol.text)
  rw [Nat.zero_add] at read
  have named : (written.tree 0 expression).macroName?.isSome = true := by
    simp only [Attribute.macroName?, tree, MacroName.ofText?_text, Option.isSome_some]
  refine ⟨expression, ?_, denotes⟩
  rw [← List.append_nil emptyProtocol.text] at read
  have site := emptyProtocol.readSite_behind_attribute [] written.leadBlank named read
  rwa [List.append_nil, emptyProtocol_text] at site

/-- A literal argument survives the source format. An attribute that is written with any string
or any list of strings, in front of a protocol, is the one macro of the one site of its text;
no interpolation is seen in its literals, and lowering the site gives the protocol with exactly
the invocation that was written. -/
theorem readSites_source : ∃ site expression,
    readSites written.source = [site] ∧
      site.attributes = [written.tree 0 expression] ∧
      expression.Denotes written.value ∧
      site.annotated = .ok written.annotated := by
  obtain ⟨expression, read, denotes⟩ := written.exists_readSite_source
  have start : skipTrivia written.source = written.source :=
    skipTrivia_of_token (by decide) (by decide) _
  refine ⟨⟨[written.tree 0 expression],
    .declaration (emptyProtocol.declaration (written.text ++ written.lead).size),
    ⟨0, written.source.size⟩⟩, expression, ?_, rfl, denotes, ?_⟩
  · rw [readSites_eq_sitesFrom, sitesFrom_of_readSite start read]
    rfl
  · have macros (target : Target) (span : Span) :
        Site.macros ⟨[written.tree 0 expression], target, span⟩ =
          [(written.name, written.tree 0 expression)] := by
      simp only [Site.macros, List.filterMap_cons, List.filterMap_nil, Attribute.macroName?, tree,
        MacroName.ofText?_text, Option.map_some]
    have readable : (written.tree 0 expression).malformedArguments = false := rfl
    have size : emptyProtocol.text.size = 13 := by decide +kernel
    simp only [Site.annotated, macros, List.find?_cons, List.find?_nil, readable, Site.declaration,
      List.mapM_cons, List.mapM_nil, written.invocation_tree 0 denotes]
    simp only [annotated, SourceDeclaration.declaration, WrittenDeclaration.declaration, size]
    rfl

/-- A list of three strings: marks of lists and comments, an interpolation with a quote in it, and
nothing but line breaks. A comma stands behind the last. -/
def listOfMarks : WrittenAttribute where
  name := .style
  label := some "subViews"
  value := .list [",]/*", "\\(\")", "\n\x0d"]
  finalComma := true
  gap := " "
  lead := "\n"
  word := by decide +kernel
  gapBlank := by decide
  leadBlank := by decide

example : listOfMarks.source =
    ("@Style( subViews: [ \",]/*\", \"\\\\(\\\")\", \"\\n\\r\", ])\nprotocol P \x7b\x7d" :
      String).toList := by
  decide +kernel

theorem readSites_listOfMarks : ∃ site expression,
    readSites listOfMarks.source = [site] ∧
      site.attributes = [listOfMarks.tree 0 expression] ∧
      expression.Denotes listOfMarks.value ∧
      site.annotated = .ok listOfMarks.annotated :=
  listOfMarks.readSites_source

end WrittenAttribute

end StyleMacros
