import StyleMacros.Source.Annotated
import StyleMacros.Source.Attribute
import StyleMacros.Proofs.Source.Lexemes
import StyleMacros.Proofs.Source.Printing
import StyleMacros.Proofs.Text.Words

/-!
# Literals written out

A string is written as a literal by escaping four of its characters, and a list of strings as
literals between brackets. Reading such a literal in front of a delimiter gives the string or the
list back, whatever characters it is made of, and finds no interpolation in it.
-/

set_option autoImplicit false

namespace StyleMacros

/-! ## Escaping -/

def escapeChar : Char → Text
  | '\\' => "\\\\"
  | '"' => "\\\""
  | '\n' => "\\n"
  | '\r' => "\\r"
  | char => [char]

def escape (text : Text) : Text :=
  text.flatMap escapeChar

/-- The letter of a written escape is no `u` and opens no interpolation; a character that is
written as it is ends no literal. -/
theorem escapeChar_cases (char : Char) :
    (∃ letter, escapeChar char = ['\\', letter] ∧ letter ≠ '(' ∧ letter ≠ 'u' ∧
        escapedChar? letter = some char) ∨
      escapeChar char = [char] ∧ char ∉ ['"', '\\', '\n', '\r'] := by
  unfold escapeChar
  split
  · exact .inl ⟨'\\', rfl, by decide, by decide, rfl⟩
  · exact .inl ⟨'"', rfl, by decide, by decide, rfl⟩
  · exact .inl ⟨'n', rfl, by decide, by decide, rfl⟩
  · exact .inl ⟨'r', rfl, by decide, by decide, rfl⟩
  · rename_i noSlash noQuote noFeed noReturn
    refine .inr ⟨rfl, ?_⟩
    simp only [List.mem_cons, List.not_mem_nil, or_false, not_or]
    exact ⟨noQuote, noSlash, noFeed, noReturn⟩

theorem escape_cons (head : Char) (rest : Text) :
    escape (head :: rest) = escapeChar head ++ escape rest := rfl

theorem literalContent_escape (text : Text) : LiteralContent (escape text) := by
  induction text with
  | nil => exact .nil
  | cons head rest inductionHypothesis =>
      rw [escape_cons]
      rcases escapeChar_cases head with ⟨letter, written, noGroup, _, _⟩ | ⟨written, plain⟩
      · rw [written]
        exact .escape noGroup inductionHypothesis
      · rw [written]
        exact .char plain inductionHypothesis

theorem unescapeWithin_letter {letter char : Char} (noCode : letter ≠ 'u')
    (means : escapedChar? letter = some char) (fuel : Nat) (rest : Text) :
    unescapeWithin (fuel + 1) ('\\' :: letter :: rest) = char :: unescapeWithin fuel rest := by
  rw [unescapeWithin, means]
  · rfl
  · intro _ same _
    exact noCode same

theorem unescapeWithin_char {head : Char} (noEscape : head ≠ '\\') (fuel : Nat) (rest : Text) :
    unescapeWithin (fuel + 1) (head :: rest) = head :: unescapeWithin fuel rest := by
  rw [unescapeWithin]
  · intro _ same _
    exact noEscape same
  · intro _ _ same _
    exact noEscape same

theorem unescapeWithin_escape (text : Text) {fuel : Nat} (enough : (escape text).length ≤ fuel) :
    unescapeWithin fuel (escape text) = text := by
  induction text generalizing fuel with
  | nil => cases fuel <;> rfl
  | cons head rest inductionHypothesis =>
      rw [escape_cons, List.length_append] at enough
      rw [escape_cons]
      rcases escapeChar_cases head with ⟨letter, written, _, noCode, means⟩ | ⟨written, plain⟩
      · rw [written, List.length_cons, List.length_singleton] at enough
        obtain ⟨fuel, rfl⟩ := Nat.exists_eq_add_of_le' (by omega : 1 ≤ fuel)
        rw [written, List.cons_append, List.singleton_append, unescapeWithin_letter noCode means,
          inductionHypothesis (by omega)]
      · have noEscape : head ≠ '\\' := by
          rintro rfl
          simp at plain
        rw [written, List.length_singleton] at enough
        obtain ⟨fuel, rfl⟩ := Nat.exists_eq_add_of_le' (by omega : 1 ≤ fuel)
        rw [written, List.singleton_append, unescapeWithin_char noEscape,
          inductionHypothesis (by omega)]

theorem unescape_escape (text : Text) : unescape (escape text) = text :=
  unescapeWithin_escape text (Nat.le_refl _)

/-! ## String literals -/

def stringLiteral (value : Text) : Text :=
  '"' :: (escape value ++ ['"'])

theorem stringLiteral_append (value rest : Text) :
    stringLiteral value ++ rest = '"' :: (escape value ++ '"' :: rest) := by
  simp [stringLiteral]

/-- No interpolation opens in the content of a literal. -/
theorem interpolatesWithin_literal {content : Text} (plain : LiteralContent content) (fuel : Nat)
    (rest : Text) : interpolatesWithin fuel (content ++ '"' :: rest) = false := by
  induction plain generalizing fuel with
  | nil => cases fuel <;> rfl
  | @char head tail solid later inductionHypothesis =>
      cases fuel with
      | zero => rfl
      | succ fuel =>
          have noEscape : head ≠ '\\' := by
            rintro rfl
            simp at solid
          have opensNone : Region.interpolationOpenings (head :: (tail ++ '"' :: rest)) = [] := by
            simp [Region.interpolationOpenings, noEscape]
          have first : Region.literal.plain (head :: (tail ++ '"' :: rest)) =
              some (tail ++ '"' :: rest) := Region.escapeOr_of_notMem noEscape solid _
          rw [List.cons_append, interpolatesWithin, opensNone, first]
          exact inductionHypothesis fuel
  | @escape escaped tail noGroup later inductionHypothesis =>
      cases fuel with
      | zero => rfl
      | succ fuel =>
          have opensNone : Region.interpolationOpenings
              ('\\' :: escaped :: (tail ++ '"' :: rest)) = [] := by
            simp [Region.interpolationOpenings, noGroup]
          rw [List.cons_append, List.cons_append, interpolatesWithin, opensNone]
          exact inductionHypothesis fuel

theorem readString_stringLiteral (value rest : Text) :
    readString (stringLiteral value ++ rest) = some (value, false, rest) := by
  have plain := literalContent_escape value
  have ends := Region.afterContent_literal plain rest
  have closes : Region.literal.finish? (escape value ++ '"' :: rest) = some rest :=
    Region.finish?_of_afterContent rfl ends
  rw [stringLiteral_append]
  simp only [readString, closes, ends, Text.before_append, unescape_escape,
    interpolatesWithin_literal plain, Option.map_some]

/-! ## Expressions -/

/-- An expression that was read is the literal of a value: no interpolation was found in it. -/
def Expression.Denotes : Expression → ArgumentValue → Prop
  | .string text interpolated _, .string value => text = value ∧ interpolated = false
  | .array elements _, .list values =>
    List.Forall₂ (fun element value => ∃ span, element = .string value false span) elements values
  | _, _ => False

theorem Expression.Denotes.literal {expression : Expression} {value : ArgumentValue}
    (denotes : expression.Denotes value) (name : MacroName) :
    expression.literal name = .ok value := by
  cases expression with
  | string text interpolated span =>
      cases value with
      | string value =>
          obtain ⟨rfl, rfl⟩ := denotes
          rfl
      | list values => exact denotes.elim
  | array elements span =>
      cases value with
      | string value => exact denotes.elim
      | list values =>
          have listed : elements.mapM (Expression.literalString name) = .ok values := by
            induction denotes with
            | nil => rfl
            | cons element _ inductionHypothesis =>
                obtain ⟨span, rfl⟩ := element
                rw [List.mapM_cons, inductionHypothesis]
                rfl
          simp only [Expression.literal, listed]
          rfl
  | other text span => exact denotes.elim

section Reading

variable (total : Nat)

theorem literalEnd?_mark {mark : Char} (ends : mark ∈ [',', ')', ']']) (rest : Text) :
    literalEnd? (mark :: rest) = some (mark :: rest) := by
  have token : isTokenBlank mark = false ∧ mark ≠ '/' := by
    revert mark
    decide
  simp only [literalEnd?, skipTrivia_of_token token.1 token.2, endsExpression, ends, decide_true,
    if_true]

/-- A literal in front of a delimiter is read as the string that it was written for. -/
theorem readExpressionWithin_stringLiteral (value : Text) {mark : Char}
    (ends : mark ∈ [',', ')', ']']) (fuel : Nat) (rest : Text) :
    ∃ span, readExpressionWithin total (fuel + 1) (stringLiteral value ++ mark :: rest) =
      some (.string value false span, mark :: rest) := by
  refine ⟨.between total (stringLiteral value ++ mark :: rest) (mark :: rest), ?_⟩
  have noArray : readArrayLiteral total (readExpressionWithin total fuel)
      (stringLiteral value ++ mark :: rest) = none := rfl
  have string : readStringLiteral total (stringLiteral value ++ mark :: rest) =
      some (.string value false (.between total (stringLiteral value ++ mark :: rest)
        (mark :: rest)), mark :: rest) := by
    simp only [readStringLiteral, readString_stringLiteral, literalEnd?_mark ends,
      Option.bind_eq_bind, Option.bind_some]
    rfl
  rw [readExpressionWithin, noArray, string]
  rfl

theorem readExpressionWithin_closing (fuel : Nat) (rest : Text) :
    readExpressionWithin total fuel (']' :: rest) = none := by
  have ends : Region.value.afterContent (']' :: rest) = ']' :: rest :=
    Region.afterContent_of_none rfl rfl
  have noOther : readOtherValue total (']' :: rest) = none := by
    simp only [readOtherValue, ends, Nat.lt_irrefl, if_false]
  cases fuel with
  | zero => rfl
  | succ fuel =>
      rw [readExpressionWithin, noOther]
      rfl

/-! ## Lists -/

variable {gap : Text} (blank : ∀ char ∈ gap, isTokenBlank char = true)

def furtherLiterals (gap : Text) (values : List Text) : Text :=
  values.flatMap fun value => ',' :: (gap ++ stringLiteral value)

def listEnd (gap : Text) (finalComma : Bool) : Text :=
  if finalComma then ',' :: (gap ++ [']']) else [']']

/-- A list of strings in brackets. Only behind an element there may be a final comma. -/
def listLiteral (gap : Text) (finalComma : Bool) : List Text → Text
  | [] => '[' :: (gap ++ [']'])
  | first :: others =>
    '[' :: (gap ++ (stringLiteral first ++ (furtherLiterals gap others ++ listEnd gap finalComma)))

theorem furtherLiterals_cons (gap first : Text) (others : List Text) :
    furtherLiterals gap (first :: others) =
      ',' :: (gap ++ (stringLiteral first ++ furtherLiterals gap others)) := by
  simp [furtherLiterals]

theorem exists_mark_furtherLiterals (gap : Text) (finalComma : Bool) (values : List Text)
    (rest : Text) :
    ∃ mark behind, furtherLiterals gap values ++ (listEnd gap finalComma ++ rest) =
      mark :: behind ∧ mark ∈ [',', ')', ']'] := by
  cases values with
  | nil =>
      cases finalComma with
      | false => exact ⟨']', rest, rfl, by decide⟩
      | true => exact ⟨',', _, rfl, by decide⟩
  | cons first others =>
      rw [furtherLiterals_cons]
      exact ⟨',', _, rfl, by decide⟩

theorem skipTrivia_stringLiteral (value rest : Text) :
    skipTrivia (stringLiteral value ++ rest) = stringLiteral value ++ rest :=
  skipTrivia_of_token (by decide) (by decide) _

theorem skipTrivia_bracket (rest : Text) : skipTrivia (']' :: rest) = ']' :: rest :=
  skipTrivia_of_token (by decide) (by decide) rest

theorem skipTrivia_finalComma (gap rest : Text) :
    skipTrivia (listEnd gap true ++ rest) = ',' :: (gap ++ ']' :: rest) := by
  have split : listEnd gap true ++ rest = ',' :: (gap ++ ']' :: rest) := by simp [listEnd]
  rw [split, skipTrivia_of_token (by decide) (by decide)]

include blank in
theorem afterFinalComma_listEnd (finalComma : Bool) (rest : Text) :
    afterFinalComma (listEnd gap finalComma ++ rest) = ']' :: rest := by
  cases finalComma with
  | false => simp [afterFinalComma, listEnd, skipTrivia_bracket]
  | true =>
      simp only [afterFinalComma, skipTrivia_finalComma, skipTrivia_blanks_append blank,
        skipTrivia_bracket]

include blank in
theorem readFurther_listEnd (finalComma : Bool) (depth fuel : Nat) (rest : Text) :
    readFurther (readExpressionWithin total depth) fuel (listEnd gap finalComma ++ rest) =
      ([], listEnd gap finalComma ++ rest) := by
  cases fuel with
  | zero => rfl
  | succ fuel =>
      cases finalComma with
      | false =>
          rw [readFurther]
          simp only [listEnd, Bool.false_eq_true, if_false, List.singleton_append,
            skipTrivia_bracket]
          rfl
      | true =>
          rw [readFurther, skipTrivia_finalComma]
          simp only [skipTrivia_blanks_append blank, skipTrivia_bracket,
            readExpressionWithin_closing total]

include blank in
theorem readFurther_literals (values : List Text) (finalComma : Bool) (depth : Nat) {fuel : Nat}
    (enough : values.length ≤ fuel) (rest : Text) :
    ∃ elements, readFurther (readExpressionWithin total (depth + 1)) fuel
        (furtherLiterals gap values ++ (listEnd gap finalComma ++ rest)) =
          (elements, listEnd gap finalComma ++ rest) ∧
      List.Forall₂ (fun element value => ∃ span, element = Expression.string value false span)
        elements values := by
  induction values generalizing fuel with
  | nil => exact ⟨[], readFurther_listEnd total blank finalComma (depth + 1) fuel rest, .nil⟩
  | cons first others inductionHypothesis =>
      cases fuel with
      | zero => simp at enough
      | succ fuel =>
          obtain ⟨mark, behind, exact, ends⟩ := exists_mark_furtherLiterals gap finalComma others rest
          obtain ⟨span, element⟩ := readExpressionWithin_stringLiteral total first ends
            depth behind
          obtain ⟨elements, further, denote⟩ := inductionHypothesis (Nat.le_of_succ_le_succ enough)
          have split : furtherLiterals gap (first :: others) ++ (listEnd gap finalComma ++ rest) =
              ',' :: (gap ++ (stringLiteral first ++ mark :: behind)) := by
            rw [furtherLiterals_cons, ← exact]
            simp
          rw [exact] at further
          refine ⟨.string first false span :: elements, ?_, .cons ⟨span, rfl⟩ denote⟩
          rw [split, readFurther, skipTrivia_of_token (by decide) (by decide)]
          simp only [skipTrivia_blanks_append blank, skipTrivia_stringLiteral, element, further]

include blank in
theorem readClosedList_literals (values : List Text) (finalComma : Bool) (depth : Nat)
    (rest : Text) :
    ∃ elements, readClosedList (readExpressionWithin total (depth + 1)) ']'
        ((listLiteral gap finalComma values).tail ++ rest) = some (elements, rest) ∧
      List.Forall₂ (fun element value => ∃ span, element = Expression.string value false span)
        elements values := by
  cases values with
  | nil =>
      have split : (listLiteral gap finalComma []).tail ++ rest = gap ++ ']' :: rest := by
        simp [listLiteral]
      refine ⟨[], ?_, .nil⟩
      simp only [split, readClosedList, skipTrivia_blanks_append blank, skipTrivia_bracket,
        readSeparated, readExpressionWithin_closing total]
      rfl
  | cons first others =>
      obtain ⟨mark, behind, exact, ends⟩ := exists_mark_furtherLiterals gap finalComma others rest
      obtain ⟨span, element⟩ := readExpressionWithin_stringLiteral total first ends
        depth behind
      have enough : others.length ≤ (mark :: behind).length := by
        have length := length_le_flatMap_cons others ',' fun value => gap ++ stringLiteral value
        rw [← exact, List.length_append]
        exact Nat.le_trans length (Nat.le_add_right _ _)
      obtain ⟨elements, further, denote⟩ :=
        readFurther_literals total blank others finalComma depth enough rest
      have split : (listLiteral gap finalComma (first :: others)).tail ++ rest =
          gap ++ (stringLiteral first ++ mark :: behind) := by
        rw [← exact]
        simp [listLiteral]
      rw [exact] at further
      refine ⟨.string first false span :: elements, ?_, .cons ⟨span, rfl⟩ denote⟩
      simp only [split, readClosedList, skipTrivia_blanks_append blank, skipTrivia_stringLiteral,
        readSeparated, element, Option.bind_eq_bind, Option.bind_some, further]
      simp [afterFinalComma_listEnd blank]

/-! ## Values -/

def valueLiteral (gap : Text) (finalComma : Bool) : ArgumentValue → Text
  | .string value => stringLiteral value
  | .list values => listLiteral gap finalComma values

theorem exists_head_valueLiteral (gap : Text) (finalComma : Bool) (value : ArgumentValue) :
    ∃ head rest, valueLiteral gap finalComma value = head :: rest ∧ (head = '"' ∨ head = '[') := by
  cases value with
  | string value => exact ⟨'"', _, rfl, .inl rfl⟩
  | list values =>
      cases values with
      | nil => exact ⟨'[', _, rfl, .inr rfl⟩
      | cons first others => exact ⟨'[', _, rfl, .inr rfl⟩

theorem listLiteral_eq_cons (gap : Text) (finalComma : Bool) (values : List Text) :
    listLiteral gap finalComma values = '[' :: (listLiteral gap finalComma values).tail := by
  cases values <;> rfl

include blank in
theorem readArrayLiteral_listLiteral (values : List Text) (finalComma : Bool) (depth : Nat)
    {mark : Char} (ends : mark ∈ [',', ')', ']']) (rest : Text) :
    ∃ expression, readArrayLiteral total (readExpressionWithin total (depth + 1))
        (listLiteral gap finalComma values ++ mark :: rest) = some (expression, mark :: rest) ∧
      expression.Denotes (.list values) := by
  obtain ⟨elements, closes, denote⟩ :=
    readClosedList_literals total blank values finalComma depth (mark :: rest)
  refine ⟨.array elements (.between total (listLiteral gap finalComma values ++ mark :: rest)
    (mark :: rest)), ?_, denote⟩
  rw [listLiteral_eq_cons, List.cons_append]
  simp only [readArrayLiteral, closes, literalEnd?_mark ends, Option.bind_eq_bind,
    Option.bind_some]
  rfl

include blank in
/-- The literal of a value is read as that value in front of a delimiter, whatever follows. -/
theorem readExpression_valueLiteral (value : ArgumentValue) (finalComma : Bool) {mark : Char}
    (ends : mark ∈ [',', ')', ']']) (rest : Text) :
    ∃ expression, readExpression total (valueLiteral gap finalComma value ++ mark :: rest) =
        some (expression, mark :: rest) ∧ expression.Denotes value := by
  cases value with
  | string value =>
      obtain ⟨span, read⟩ := readExpressionWithin_stringLiteral total value ends
        (stringLiteral value ++ mark :: rest).length rest
      exact ⟨.string value false span, read, rfl, rfl⟩
  | list values =>
      obtain ⟨depth, deep⟩ : ∃ depth,
          (listLiteral gap finalComma values ++ mark :: rest).length = depth + 1 :=
        ⟨_, by rw [listLiteral_eq_cons]; rfl⟩
      obtain ⟨expression, read, denotes⟩ :=
        readArrayLiteral_listLiteral total blank values finalComma depth ends rest
      refine ⟨expression, ?_, denotes⟩
      rw [valueLiteral, readExpression, deep, readExpressionWithin, read]
      rfl

end Reading

end StyleMacros
