import StyleMacros.Source.Header
import StyleMacros.Proofs.Source.Readers

/-!
# What the reader of a declaration leaves

The parts of a declaration are read one behind the other, so what the last of them leaves is an
end part of the text. The body is the one part whose place is kept: it lies between the two
braces with which the declaration ends.
-/

set_option autoImplicit false

namespace StyleMacros

/-! ## Words -/

theorem readModifier_leavesSuffix : LeavesSuffix readModifier := by
  intro text modifier rest success
  obtain ⟨⟨word, behind⟩, named, result⟩ := Option.bind_eq_some_iff.mp success
  obtain ⟨found, _, result⟩ := Option.bind_eq_some_iff.mp result
  cases Option.some.inj result
  exact identifier?_leavesSuffix _ _ _ named

theorem readKeyword_leavesSuffix : LeavesSuffix readKeyword := by
  intro text keyword rest success
  obtain ⟨⟨word, behind⟩, named, result⟩ := Option.bind_eq_some_iff.mp success
  obtain ⟨found, _, result⟩ := Option.bind_eq_some_iff.mp result
  cases Option.some.inj result
  exact identifier?_leavesSuffix _ _ _ named

theorem afterMembers_suffix (fuel : Nat) (text : Text) : afterMembers fuel text <:+ text := by
  induction fuel generalizing text with
  | zero => exact List.suffix_refl text
  | succ fuel inductionHypothesis =>
      rw [afterMembers.eq_def]
      simp only
      split
      · rename_i behind
        split
        · rename_i rest named
          exact ((inductionHypothesis rest).trans (identifier?_leavesSuffix _ _ _ named)).trans
            (List.suffix_cons '.' behind)
        · exact List.suffix_refl _
      · exact List.suffix_refl _

theorem readDottedName_leavesSuffix : LeavesSuffix readDottedName := by
  intro text name rest success
  obtain ⟨⟨first, behind⟩, named, result⟩ := Option.bind_eq_some_iff.mp success
  cases Option.some.inj result
  exact (afterMembers_suffix behind.length behind).trans (identifier?_leavesSuffix _ _ _ named)

/-! ## Generic parameters -/

theorem readConstraint_leavesSuffix : LeavesSuffix readConstraint := by
  intro text constraint rest success
  simp only [readConstraint] at success
  split at success
  · cases Option.some.inj success
    exact Region.afterContent_suffix .constraint text
  · simp at success

theorem readGenericParameter_leavesSuffix : LeavesSuffix readGenericParameter := by
  intro text parameter rest success
  obtain ⟨⟨name, behindName⟩, named, result⟩ := Option.bind_eq_some_iff.mp success
  have start : skipTrivia behindName <:+ text :=
    (skipTrivia_suffix behindName).trans (identifier?_leavesSuffix _ _ _ named)
  simp only at result
  split at result
  · rename_i after colon
    split at result
    · rename_i constraint last constrained
      cases Option.some.inj result
      exact ((readConstraint_leavesSuffix _ _ _ constrained).trans (skipTrivia_suffix after)).trans
        ((colon ▸ List.suffix_cons ':' after).trans start)
    · cases Option.some.inj result
      exact start
  · cases Option.some.inj result
    exact start

theorem readGenericParameters_leavesSuffix : LeavesSuffix readGenericParameters := by
  intro text parameters rest success
  unfold readGenericParameters at success
  split at success
  · rename_i content
    obtain ⟨⟨listed, last⟩, separated, result⟩ := Option.bind_eq_some_iff.mp success
    simp only at result
    split at result
    · rename_i behind closes
      cases Option.some.inj result
      have inner : rest <:+ last :=
        (closes ▸ List.suffix_cons '>' rest).trans (afterFinalComma_suffix last)
      exact ((inner.trans
        (readSeparated_leavesSuffix readGenericParameter_leavesSuffix _ _ _ separated)).trans
        (skipTrivia_suffix content)).trans (List.suffix_cons '<' content)
    · simp at result
  · simp at success

/-! ## Inherited types -/

theorem afterAngleGroup_suffix (text : Text) : afterAngleGroup text <:+ text := by
  unfold afterAngleGroup
  split
  · rename_i behind closes
    exact Region.findSome?_finish?_suffix Region.angleOpenings_opensAtHead closes
  · exact List.suffix_refl text

theorem afterTypeMembers_suffix (fuel : Nat) (text : Text) :
    afterTypeMembers fuel text <:+ text := by
  induction fuel generalizing text with
  | zero => exact List.suffix_refl text
  | succ fuel inductionHypothesis =>
      rw [afterTypeMembers.eq_def]
      simp only
      split
      · rename_i behind
        split
        · rename_i rest named
          have group : afterAngleGroup rest <:+ behind :=
            (afterAngleGroup_suffix rest).trans (identifier?_leavesSuffix _ _ _ named)
          exact ((inductionHypothesis _).trans group).trans (List.suffix_cons '.' behind)
        · exact List.suffix_refl _
      · exact List.suffix_refl _

theorem afterTypePath?_suffix {text rest : Text} (success : afterTypePath? text = some rest) :
    rest <:+ text := by
  obtain ⟨⟨name, behind⟩, named, result⟩ := Option.bind_eq_some_iff.mp success
  cases Option.some.inj result
  exact ((afterTypeMembers_suffix _ _).trans (afterAngleGroup_suffix behind)).trans
    (identifier?_leavesSuffix _ _ _ named)

theorem afterBlanks?_suffix {text rest : Text} (success : afterBlanks? text = some rest) :
    rest <:+ text := by
  cases text with
  | nil => simp [afterBlanks?] at success
  | cons head tail =>
      simp only [afterBlanks?] at success
      split at success
      · cases Option.some.inj success
        exact (List.dropWhile_suffix _).trans (List.suffix_cons head tail)
      · simp at success

theorem afterTypeAttribute?_suffix {text rest : Text}
    (success : afterTypeAttribute? text = some rest) : rest <:+ text := by
  unfold afterTypeAttribute? at success
  split at success
  · rename_i behind
    obtain ⟨⟨name, last⟩, named, blanks⟩ := Option.bind_eq_some_iff.mp success
    exact ((afterBlanks?_suffix blanks).trans (identifier?_leavesSuffix _ _ _ named)).trans
      (List.suffix_cons '@' behind)
  · simp at success

theorem afterTypeQualifier?_suffix {text rest : Text}
    (success : afterTypeQualifier? text = some rest) : rest <:+ text := by
  obtain ⟨behind, word, blanks⟩ := Option.bind_eq_some_iff.mp success
  have inner : behind <:+ text := by
    rcases Option.or_eq_some_iff.mp word with any | ⟨_, some_⟩
    · exact Text.suffix_of_after? any
    · exact Text.suffix_of_after? some_
  exact (afterBlanks?_suffix blanks).trans inner

theorem getD_suffix {text : Text} {found : Option Text}
    (suffix : ∀ rest, found = some rest → rest <:+ text) : found.getD text <:+ text := by
  cases found with
  | none => exact List.suffix_refl text
  | some rest => exact suffix rest rfl

theorem afterTypeTerm?_suffix {text rest : Text} (success : afterTypeTerm? text = some rest) :
    rest <:+ text := by
  obtain ⟨behind, found, result⟩ := Option.bind_eq_some_iff.mp success
  cases Option.some.inj result
  have marked := getD_suffix fun _ (after : afterTypeAttribute? text = some _) =>
    afterTypeAttribute?_suffix after
  generalize (afterTypeAttribute? text).getD text = afterMark at found marked
  have bare := getD_suffix fun _ (after : Text.after? "~" afterMark = some _) =>
    Text.suffix_of_after? after
  generalize (Text.after? "~" afterMark).getD afterMark = afterTilde at found bare
  have qualified := getD_suffix fun _ (after : afterTypeQualifier? afterTilde = some _) =>
    afterTypeQualifier?_suffix after
  generalize (afterTypeQualifier? afterTilde).getD afterTilde = start at found qualified
  have type : behind <:+ start := by
    rcases Option.or_eq_some_iff.mp found with path | ⟨_, group⟩
    · exact afterTypePath?_suffix path
    · exact Region.findSome?_finish?_suffix
        (Region.roundOpenings_opensAtHead.append Region.squareOpenings_opensAtHead) group
  exact (List.dropWhile_suffix _).trans (((type.trans qualified).trans bare).trans marked)

theorem afterComposition_suffix (fuel : Nat) (text : Text) :
    afterComposition fuel text <:+ text := by
  induction fuel generalizing text with
  | zero => exact List.suffix_refl text
  | succ fuel inductionHypothesis =>
      rw [afterComposition]
      split
      · rename_i behind ampersand
        split
        · rename_i rest term
          have inner : rest <:+ behind :=
            (afterTypeTerm?_suffix term).trans (List.dropWhile_suffix _)
          exact ((inductionHypothesis rest).trans inner).trans
            ((ampersand ▸ List.suffix_cons '&' behind).trans (List.dropWhile_suffix _))
        · exact List.suffix_refl text
      · exact List.suffix_refl text

theorem readTypeReference_leavesSuffix : LeavesSuffix readTypeReference := by
  intro text reference rest success
  obtain ⟨behind, term, result⟩ := Option.bind_eq_some_iff.mp success
  cases Option.some.inj result
  exact (afterComposition_suffix behind.length behind).trans (afterTypeTerm?_suffix term)

theorem readInheritance_leavesSuffix : LeavesSuffix readInheritance := by
  intro text inherited rest success
  unfold readInheritance at success
  split at success
  · rename_i behind
    exact ((readSeparated_leavesSuffix readTypeReference_leavesSuffix _ _ _ success).trans
      (skipTrivia_suffix behind)).trans (List.suffix_cons ':' behind)
  · simp at success

/-! ## Requirements and body -/

theorem afterWord?_suffix {text word rest : Text} (success : text.afterWord? word = some rest) :
    rest <:+ text := by
  unfold Text.afterWord? at success
  split at success
  · rename_i name behind named
    split at success
    · cases Option.some.inj success
      exact identifier?_leavesSuffix _ _ _ named
    · simp at success
  · simp at success

theorem readRequirements_leavesSuffix : LeavesSuffix readRequirements := by
  intro text requirements rest success
  obtain ⟨behind, word, result⟩ := Option.bind_eq_some_iff.mp success
  cases Option.some.inj result
  exact (Region.afterContent_suffix .requirements behind).trans (afterWord?_suffix word)

theorem readBody_exposes_content {total : Nat} {text rest : Text} {body : Span}
    (success : readBody total text = some (body, rest)) :
    ∃ inner, text = '\x7b' :: inner ∧ Region.body.afterContent inner = '\x7d' :: rest ∧
      body = .between total inner ('\x7d' :: rest) := by
  unfold readBody at success
  split at success
  · rename_i inner
    obtain ⟨behind, closes, result⟩ := Option.bind_eq_some_iff.mp success
    cases Option.some.inj result
    obtain ⟨mark, closing, split⟩ := Region.append_of_afterClosing closes
    cases Option.some.inj closing
    exact ⟨inner, rfl, split.symm, by rw [← split]; rfl⟩
  · simp at success

/-- A body is what stands between its two braces, the second of which ends it. -/
theorem readBody_exposes_braces {total : Nat} {text rest : Text} {body : Span}
    (success : readBody total text = some (body, rest)) :
    ∃ content, text = '\x7b' :: (content ++ '\x7d' :: rest) ∧
      body = .between total (content ++ '\x7d' :: rest) ('\x7d' :: rest) := by
  obtain ⟨inner, exact, ends, span⟩ := readBody_exposes_content success
  obtain ⟨content, whole⟩ := Region.afterContent_suffix .body inner
  rw [ends] at whole
  rw [← whole] at exact span
  exact ⟨content, exact, span⟩

theorem readBody_leavesSuffix (total : Nat) : LeavesSuffix (readBody total) := by
  intro text body rest success
  obtain ⟨content, exact, _⟩ := readBody_exposes_braces success
  exact ⟨'\x7b' :: (content ++ ['\x7d']), by simp [exact]⟩

/-! ## Declarations -/

theorem readOptional_suffix {Part : Type} {read : Text → Option (Part × Text)}
    (leaves : LeavesSuffix read) (text : Text) : (readOptional read text).2 <:+ text := by
  simp only [readOptional]
  split
  · rename_i part rest success
    exact (leaves _ _ _ success).trans (skipTrivia_suffix text)
  · exact skipTrivia_suffix text

theorem readDeclaration_exposes_body {total : Nat} {text rest : Text}
    {written : SourceDeclaration} (success : readDeclaration total text = some (written, rest)) :
    written.span = .between total text rest ∧
      ∃ behind, behind <:+ text ∧ readBody total behind = some (written.body, rest) := by
  unfold readDeclaration at success
  obtain ⟨⟨keyword, behindKeyword⟩, keyed, result⟩ := Option.bind_eq_some_iff.mp success
  obtain ⟨⟨name, behindName⟩, named, result⟩ := Option.bind_eq_some_iff.mp result
  obtain ⟨⟨body, last⟩, bodied, result⟩ := Option.bind_eq_some_iff.mp result
  cases Option.some.inj result
  refine ⟨rfl, _, ?_, bodied⟩
  have modifiers := readMany_suffix readModifier_leavesSuffix text.length text
  have keyword := (readKeyword_leavesSuffix _ _ _ keyed).trans (skipTrivia_suffix _)
  have name := (readDottedName_leavesSuffix _ _ _ named).trans (skipTrivia_suffix _)
  have generics := readOptional_suffix readGenericParameters_leavesSuffix behindName
  have inherited := readOptional_suffix readInheritance_leavesSuffix
    (readOptional readGenericParameters behindName).2
  have required := readOptional_suffix readRequirements_leavesSuffix
    (readOptional readInheritance (readOptional readGenericParameters behindName).2).2
  exact ((skipTrivia_suffix _).trans required).trans
    (inherited.trans (generics.trans (name.trans (keyword.trans modifiers))))

theorem readDeclaration_leavesSuffix (total : Nat) : LeavesSuffix (readDeclaration total) := by
  intro text written rest success
  obtain ⟨_, behind, inner, body⟩ := readDeclaration_exposes_body success
  exact (readBody_leavesSuffix total _ _ _ body).trans inner

theorem readUnsupported_exposes_span {total : Nat} {text rest word : Text} {span : Span}
    (success : readUnsupported total text = some (word, span, rest)) :
    rest <:+ text ∧ span = .between total text rest := by
  unfold readUnsupported at success
  obtain ⟨⟨found, last⟩, named, result⟩ := Option.bind_eq_some_iff.mp success
  cases Option.some.inj result
  refine ⟨?_, rfl⟩
  exact ((identifier?_leavesSuffix _ _ _ named).trans (skipTrivia_suffix _)).trans
    (readMany_suffix readModifier_leavesSuffix text.length text)

end StyleMacros
