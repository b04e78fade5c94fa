import StyleMacros.Source.Attribute
import StyleMacros.Proofs.Source.Regions

/-!
# What a reader leaves

Every reader of the source grammar answers with an end part of the text it was given. The facts
here follow the grammar from lists over expressions to attributes.
-/

set_option autoImplicit false

namespace StyleMacros

variable {Element : Type}

def LeavesSuffix (read : Text → Option (Element × Text)) : Prop :=
  ∀ text element rest, read text = some (element, rest) → rest <:+ text

theorem identifier?_leavesSuffix : LeavesSuffix Text.identifier? := by
  intro text name rest success
  exact ⟨name, Text.append_of_identifier? success⟩

/-! ## Sequences -/

/-- Elements one after the other, each behind trivia, from one end part of a text to another. -/
inductive ReadsInTurn (read : Text → Option (Element × Text)) :
    Text → List Element → Text → Prop
  | done (text : Text) : ReadsInTurn read text [] text
  | next {text rest last : Text} {first : Element} {others : List Element}
      (success : read (skipTrivia text) = some (first, rest))
      (later : ReadsInTurn read rest others last) : ReadsInTurn read text (first :: others) last

theorem readMany_readsInTurn (read : Text → Option (Element × Text)) (fuel : Nat) (text : Text) :
    ReadsInTurn read text (readMany read fuel text).1 (readMany read fuel text).2 := by
  induction fuel generalizing text with
  | zero => exact .done text
  | succ fuel inductionHypothesis =>
      rw [readMany]
      split
      · rename_i first rest success
        exact .next success (inductionHypothesis rest)
      · exact .done text

theorem ReadsInTurn.suffix {read : Text → Option (Element × Text)} (leaves : LeavesSuffix read)
    {text last : Text} {elements : List Element} (run : ReadsInTurn read text elements last) :
    last <:+ text := by
  induction run with
  | done text => exact List.suffix_refl text
  | next success _ inductionHypothesis =>
      exact (inductionHypothesis.trans (leaves _ _ _ success)).trans (skipTrivia_suffix _)

theorem readMany_suffix {read : Text → Option (Element × Text)} (leaves : LeavesSuffix read)
    (fuel : Nat) (text : Text) : (readMany read fuel text).2 <:+ text :=
  (readMany_readsInTurn read fuel text).suffix leaves

theorem readFurther_suffix {read : Text → Option (Element × Text)} (leaves : LeavesSuffix read)
    (fuel : Nat) (text : Text) : (readFurther read fuel text).2 <:+ text := by
  induction fuel generalizing text with
  | zero => exact List.suffix_refl text
  | succ fuel inductionHypothesis =>
      rw [readFurther]
      split
      · rename_i behind comma
        have behindComma : behind <:+ text :=
          (comma ▸ List.suffix_cons ',' behind).trans (skipTrivia_suffix text)
        split
        · rename_i first rest success
          have element : rest <:+ text :=
            ((leaves _ _ _ success).trans (skipTrivia_suffix behind)).trans behindComma
          exact (inductionHypothesis rest).trans element
        · exact List.suffix_refl text
      · exact List.suffix_refl text

theorem readSeparated_leavesSuffix {read : Text → Option (Element × Text)}
    (leaves : LeavesSuffix read) : LeavesSuffix (readSeparated read) := by
  intro text elements rest success
  obtain ⟨⟨first, behind⟩, firstRead, result⟩ := Option.bind_eq_some_iff.mp success
  cases Option.some.inj result
  exact (readFurther_suffix leaves behind.length behind).trans (leaves _ _ _ firstRead)

theorem afterFinalComma_suffix (text : Text) : afterFinalComma text <:+ text := by
  unfold afterFinalComma
  split
  · rename_i behind comma
    have behindComma : behind <:+ text :=
      (comma ▸ List.suffix_cons ',' behind).trans (skipTrivia_suffix text)
    exact (skipTrivia_suffix behind).trans behindComma
  · exact skipTrivia_suffix text

/-- A list between marks ends with its closing mark. -/
theorem readClosedList_closes {read : Text → Option (Element × Text)}
    (leaves : LeavesSuffix read) {close : Char} {text rest : Text} {elements : List Element}
    (success : readClosedList read close text = some (elements, rest)) :
    close :: rest <:+ text := by
  have start := skipTrivia_suffix text
  unfold readClosedList at success
  simp only at success
  split at success
  · rename_i head behind before
    split at success
    · rename_i closes
      cases Option.some.inj success
      subst closes
      rw [← before]
      split
      · rename_i listed separated
        exact ((afterFinalComma_suffix _).trans
          (readSeparated_leavesSuffix leaves _ _ _ separated)).trans start
      · exact start
    · simp at success
  · simp at success

theorem readClosedList_leavesSuffix {read : Text → Option (Element × Text)}
    (leaves : LeavesSuffix read) (close : Char) : LeavesSuffix (readClosedList read close) := by
  intro text elements rest success
  exact (List.suffix_cons close rest).trans (readClosedList_closes leaves success)

/-! ## Expressions -/

theorem literalEnd?_suffix {text rest : Text} (success : literalEnd? text = some rest) :
    rest <:+ text := by
  simp only [literalEnd?] at success
  split at success
  · cases Option.some.inj success
    exact skipTrivia_suffix text
  · simp at success

theorem readString_suffix {text rest : Text} {value : Text} {interpolated : Bool}
    (success : readString text = some (value, interpolated, rest)) : rest <:+ text := by
  unfold readString at success
  split at success
  · rename_i content
    obtain ⟨behind, closes, result⟩ := Option.map_eq_some_iff.mp success
    cases result
    exact (Region.finish?_suffix closes).trans (List.suffix_cons '"' content)
  · simp at success

theorem readArrayLiteral_leavesSuffix (total : Nat)
    {readElement : Text → Option (Expression × Text)} (leaves : LeavesSuffix readElement) :
    LeavesSuffix (readArrayLiteral total readElement) := by
  intro text value rest success
  unfold readArrayLiteral at success
  split at success
  · rename_i content
    obtain ⟨⟨elements, behind⟩, list, result⟩ := Option.bind_eq_some_iff.mp success
    obtain ⟨last, ends, result⟩ := Option.bind_eq_some_iff.mp result
    cases Option.some.inj result
    exact ((literalEnd?_suffix ends).trans (readClosedList_leavesSuffix leaves _ _ _ _ list)).trans
      (List.suffix_cons '[' content)
  · simp at success

theorem readStringLiteral_leavesSuffix (total : Nat) : LeavesSuffix (readStringLiteral total) := by
  intro text value rest success
  obtain ⟨⟨content, interpolated, behind⟩, string, result⟩ := Option.bind_eq_some_iff.mp success
  obtain ⟨last, ends, result⟩ := Option.bind_eq_some_iff.mp result
  cases Option.some.inj result
  exact (literalEnd?_suffix ends).trans (readString_suffix string)

theorem readOtherValue_leavesSuffix (total : Nat) : LeavesSuffix (readOtherValue total) := by
  intro text value rest success
  simp only [readOtherValue] at success
  split at success
  · cases Option.some.inj success
    exact Region.afterContent_suffix .value text
  · simp at success

theorem readExpressionWithin_leavesSuffix (total fuel : Nat) :
    LeavesSuffix (readExpressionWithin total fuel) := by
  induction fuel with
  | zero => intro text value rest success; simp [readExpressionWithin] at success
  | succ fuel inductionHypothesis =>
      intro text value rest success
      simp only [readExpressionWithin, Option.orElse_eq_orElse, Option.orElse_eq_or,
        Option.or_eq_some_iff] at success
      rcases success with array | ⟨_, string | ⟨_, other⟩⟩
      · exact readArrayLiteral_leavesSuffix total inductionHypothesis _ _ _ array
      · exact readStringLiteral_leavesSuffix total _ _ _ string
      · exact readOtherValue_leavesSuffix total _ _ _ other

theorem readExpression_leavesSuffix (total : Nat) : LeavesSuffix (readExpression total) := by
  intro text value rest success
  exact readExpressionWithin_leavesSuffix total (text.length + 1) text value rest success

/-! ## Attributes -/

theorem readLabelledArgument_leavesSuffix (total : Nat) :
    LeavesSuffix (readLabelledArgument total) := by
  intro text argument rest success
  obtain ⟨⟨label, behindLabel⟩, labelled, result⟩ := Option.bind_eq_some_iff.mp success
  have named := identifier?_leavesSuffix _ _ _ labelled
  simp only at result
  split at result
  · rename_i behind colon
    have behindColon : skipTrivia behind <:+ text :=
      (((skipTrivia_suffix behind).trans (List.suffix_cons ':' behind)).trans
        (colon ▸ skipTrivia_suffix behindLabel)).trans named
    split at result
    · rename_i value last valued
      cases Option.some.inj result
      exact (readExpression_leavesSuffix total _ _ _ valued).trans behindColon
    · cases Option.some.inj result
      exact behindColon
  · simp at result

theorem readBareArgument_leavesSuffix (total : Nat) : LeavesSuffix (readBareArgument total) := by
  intro text argument rest success
  obtain ⟨⟨value, behind⟩, valued, result⟩ := Option.bind_eq_some_iff.mp success
  cases Option.some.inj result
  exact readExpression_leavesSuffix total _ _ _ valued

theorem readArgument_leavesSuffix (total : Nat) : LeavesSuffix (readArgument total) := by
  intro text argument rest success
  simp only [readArgument, Option.orElse_eq_orElse, Option.orElse_eq_or,
    Option.or_eq_some_iff] at success
  rcases success with labelled | ⟨_, bare⟩
  · exact readLabelledArgument_leavesSuffix total _ _ _ labelled
  · exact readBareArgument_leavesSuffix total _ _ _ bare

theorem readArguments_closes {total : Nat} {text rest : Text} {arguments : List SourceArgument}
    (success : readArguments total text = some (arguments, rest)) : ')' :: rest <:+ text := by
  unfold readArguments at success
  split at success
  · rename_i content
    exact (readClosedList_closes (readArgument_leavesSuffix total) success).trans
      (List.suffix_cons '(' content)
  · simp at success

/-- What an attribute consists of: the at sign, the name, and what the rest of it holds, which
is nothing or ends with a parenthesis. -/
theorem readAttribute_exposes_parts {total : Nat} {text rest : Text} {written : Attribute}
    (success : readAttribute total text = some (written, rest)) :
    ∃ behind, text = '@' :: written.name ++ behind ∧
      Text.identifier? (written.name ++ behind) = some (written.name, behind) ∧
      (rest = behind ∨ ')' :: rest <:+ behind) ∧
      written.span = .between total text rest := by
  unfold readAttribute at success
  split at success
  · rename_i content
    obtain ⟨⟨name, behind⟩, named, result⟩ := Option.bind_eq_some_iff.mp success
    have split := Text.append_of_identifier? named
    simp only at result
    split at result
    · rename_i arguments last listed
      cases Option.some.inj result
      exact ⟨behind, by rw [List.cons_append, split], by rw [split]; exact named,
        .inr (readArguments_closes listed), rfl⟩
    · cases Option.some.inj result
      exact ⟨rest, by rw [List.cons_append, split], by rw [split]; exact named, .inl rfl, rfl⟩
  · simp at success

theorem readAttribute_leavesSuffix (total : Nat) : LeavesSuffix (readAttribute total) := by
  intro text written rest success
  obtain ⟨behind, exact, _, ends, _⟩ := readAttribute_exposes_parts success
  have inner : behind <:+ text := ⟨'@' :: written.name, exact.symm⟩
  rcases ends with rfl | closes
  · exact inner
  · exact ((List.suffix_cons ')' rest).trans closes).trans inner

theorem readAttribute_of_noMark {head : Char} (noMark : head ≠ '@') (total : Nat) (rest : Text) :
    readAttribute total (head :: rest) = none := by
  unfold readAttribute
  split
  · rename_i same
    exact absurd (List.cons.inj same).1 noMark
  · rfl

end StyleMacros
