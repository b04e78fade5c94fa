import StyleMacros.Proofs.Source.Clauses
import StyleMacros.Proofs.Source.Reading
import StyleMacros.Proofs.Text.Marks

/-!
# Text that brings no macro

A text without quotes and slashes, whatever stands behind it, is read as it is by itself if its
attributes end inside of it. Such texts are put together from calm ones and from attributes with a
blank or with an argument behind the name.
-/

set_option autoImplicit false

namespace StyleMacros

theorem readArguments_value (total : Nat) {head : Char} {words : Text}
    (solid : isTokenBlank head = false) (noWord : isIdentifierStart head = false)
    (markless : Text.Markless (head :: words)) (single : ',' ∉ head :: words) (rest : Text) :
    ∃ arguments,
      readArguments total ('(' :: head :: (words ++ ')' :: rest)) = some (arguments, rest) := by
  have apart : ∀ char ∈ head :: words, char ∉ codeMarks ∧ char ≠ ',' := fun char member =>
    ⟨markless char member, fun comma => single (comma ▸ member)⟩
  simp only [codeMarks, openingMarks, List.cons_append, List.nil_append, List.mem_cons,
    List.not_mem_nil, or_false, not_or] at apart
  have passes : ∀ char ∈ head :: words, ∀ behind,
      Region.value.afterInner? (char :: behind) = none ∧
        Region.value.plain (char :: behind) = some behind := by
    intro char member behind
    have marks := apart char (List.mem_cons.mp member)
    constructor
    · simp [Region.afterInner?, Region.openings, Region.quoteOpenings, Region.roundOpenings,
        Region.squareOpenings, Region.curlyOpenings, marks]
    · exact Region.otherThan_of_notMem (by simp [marks]) behind
  have marks := apart head (.inl rfl)
  have ends : Region.value.afterContent (head :: (words ++ ')' :: rest)) = ')' :: rest :=
    (Region.afterContent_run passes (')' :: rest)).trans (Region.afterContent_of_none rfl rfl)
  have start : skipTrivia (head :: (words ++ ')' :: rest)) = head :: (words ++ ')' :: rest) :=
    skipTrivia_of_token solid marks.1.2.2.1 _
  have closing : skipTrivia (')' :: rest) = ')' :: rest :=
    skipTrivia_of_token (by decide) (by decide) rest
  have value : ∃ argument, readArgument total (head :: (words ++ ')' :: rest)) =
      some (argument, ')' :: rest) := by
    have noLabel : Text.identifier? (head :: (words ++ ')' :: rest)) = none := by
      rw [Text.identifier?, if_neg (by rw [noWord]; decide)]
    have noArray (read : Text → Option (Expression × Text)) :
        readArrayLiteral total read (head :: (words ++ ')' :: rest)) = none := by
      simp [readArrayLiteral, marks]
    have noString : readStringLiteral total (head :: (words ++ ')' :: rest)) = none := by
      simp [readStringLiteral, readString, marks]
    have long : (')' :: rest).length < (head :: (words ++ ')' :: rest)).length := by
      simp only [List.length_cons, List.length_append]
      omega
    simp only [readArgument, readLabelledArgument, noLabel, readBareArgument, readExpression,
      readExpressionWithin, noArray, noString, readOtherValue, ends, if_pos long]
    exact ⟨_, rfl⟩
  obtain ⟨argument, read⟩ := value
  have further : readFurther (readArgument total) (')' :: rest).length (')' :: rest) =
      ([], ')' :: rest) := by
    simp only [List.length_cons, readFurther, closing]
    rfl
  refine ⟨[argument], ?_⟩
  simp only [readArguments, readClosedList, readSeparated, start, read, Option.bind_eq_bind,
    Option.bind_some, further, afterFinalComma, closing, Option.pure_def]
  rfl

theorem Text.afterArguments?_value {head : Char} {words : Text} (solid : isTokenBlank head = false)
    (noWord : isIdentifierStart head = false) (markless : Text.Markless (head :: words))
    (single : ',' ∉ head :: words) (rest : Text) :
    Text.afterArguments? ('(' :: head :: (words ++ ')' :: rest)) = some rest := by
  obtain ⟨arguments, read⟩ := readArguments_value
    (Text.size ('(' :: head :: (words ++ ')' :: rest))) solid noWord markless single rest
  rw [Text.afterArguments?, read]
  rfl

/-- No comment and no literal begins in the text, and its attributes end in it and name no macro. -/
structure MacroFree (text : Text) : Prop where
  plain : ∀ char ∈ text, char ∉ ['"', '/']
  foreign : ∀ front behind, text = front ++ '@' :: behind → ∀ total rest written after,
    readAttribute total ('@' :: (behind ++ rest)) = some (written, after) →
      written.macroName? = none ∧ ∃ later, later <:+ behind ∧ after = later ++ rest

namespace MacroFree

theorem of_suffix {text later : Text} (free : MacroFree text) (suffix : later <:+ text) :
    MacroFree later := by
  obtain ⟨lead, rfl⟩ := suffix
  refine ⟨fun char member => free.plain char (List.mem_append_right lead member), ?_⟩
  intro front behind split
  exact free.foreign (lead ++ front) behind (by rw [split, List.append_assoc])

theorem append {first second : Text} (left : MacroFree first) (right : MacroFree second) :
    MacroFree (first ++ second) := by
  refine ⟨?_, ?_⟩
  · intro char member
    exact (List.mem_append.mp member).elim (left.plain char) (right.plain char)
  · intro front behind split total rest written after read
    rcases List.append_eq_append_iff.mp split with ⟨middle, rfl, exact⟩ | ⟨middle, exact, tail⟩
    · exact right.foreign middle behind exact total rest written after read
    · cases middle with
      | nil =>
          exact right.foreign [] behind tail.symm total rest written after read
      | cons head inner =>
          rw [List.cons_append] at tail
          obtain ⟨rfl, rfl⟩ := List.cons.inj tail
          rw [List.append_assoc] at read
          obtain ⟨foreign, later, ⟨lead, rfl⟩, rfl⟩ :=
            left.foreign front inner exact total (second ++ rest) written after read
          exact ⟨foreign, later ++ second, ⟨lead, (List.append_assoc lead later second).symm⟩,
            (List.append_assoc later second rest).symm⟩

theorem of_calm {text : Text} (calm : text.Calm) : MacroFree text := by
  refine ⟨fun char member => ?_, ?_⟩
  · exact fun mark => calm char member (List.mem_cons_of_mem '@' mark)
  · intro front behind split
    exact absurd (calm '@' (by simp [split])) (by decide)

theorem join {separator : Text} {pieces : List Text} (between : separator.Calm)
    (each : ∀ piece ∈ pieces, MacroFree piece) : MacroFree (Text.join separator pieces) :=
  Text.join_induction (of_calm (by decide)) (fun _ _ => append) (of_calm between) each

/-! ## Attributes -/

theorem of_attribute {behind : Text} (calm : behind.Calm)
    (foreign : ∀ total rest written after,
      readAttribute total ('@' :: (behind ++ rest)) = some (written, after) →
        written.macroName? = none ∧ ∃ later, later <:+ behind ∧ after = later ++ rest) :
    MacroFree ('@' :: behind) := by
  refine ⟨?_, ?_⟩
  · refine List.forall_mem_cons.mpr ⟨by decide, fun char member mark => ?_⟩
    exact calm char member (List.mem_cons_of_mem '@' mark)
  · intro front inner split
    cases front with
    | nil =>
        cases split
        exact foreign
    | cons head others =>
        have inside : '@' ∈ behind := by
          rw [List.cons_append] at split
          rw [(List.cons.inj split).2]
          simp
        exact absurd (calm '@' inside) (by decide)

section Attributes

variable {name words : Text} (word : name.isIdentifier = true)
  (foreign : MacroName.ofText? name = none) (calm : words.Calm)

include word foreign calm

theorem bareAttribute : MacroFree ('@' :: (name ++ ' ' :: words)) := by
  have plain := (Text.markless_of_isIdentifier word).calm
  refine of_attribute (Text.calm_append.mpr ⟨plain, ?_⟩) ?_
  · exact List.forall_mem_cons.mpr ⟨by decide, calm⟩
  · intro total rest written after read
    have named := Text.identifier?_append word
      (Text.endsWord_of_punctuation (by decide : ' ' ∈ punctuation) (words ++ rest))
    rw [List.append_assoc, List.cons_append] at read
    simp only [readAttribute, named, Option.bind_eq_bind, Option.bind_some, readArguments] at read
    cases Option.some.inj read
    exact ⟨foreign, ' ' :: words, List.suffix_append name _, rfl⟩

theorem keyPathAttribute {property : Text} (markless : property.Markless) (single : ',' ∉ property) :
    MacroFree ('@' :: (name ++ '(' :: '\\' :: '.' :: (property ++ ')' :: words))) := by
  have plain := (Text.markless_of_isIdentifier word).calm
  refine of_attribute (Text.calm_append.mpr ⟨plain, ?_⟩) ?_
  · refine List.forall_mem_cons.mpr ⟨by decide, List.forall_mem_cons.mpr ⟨by decide,
      List.forall_mem_cons.mpr ⟨by decide, Text.calm_append.mpr ⟨markless.calm, ?_⟩⟩⟩⟩
    exact List.forall_mem_cons.mpr ⟨by decide, calm⟩
  · intro total rest written after read
    have named := Text.identifier?_append word
      (Text.endsWord_of_punctuation (by decide : '(' ∈ punctuation)
        ('\\' :: '.' :: (property ++ ')' :: (words ++ rest))))
    have pathMarkless : Text.Markless ('\\' :: '.' :: property) :=
      List.forall_mem_cons.mpr ⟨by decide, List.forall_mem_cons.mpr ⟨by decide, markless⟩⟩
    have pathSingle : ',' ∉ '\\' :: '.' :: property := by simpa using single
    obtain ⟨arguments, listed⟩ := readArguments_value total (by decide) (by decide +kernel)
      pathMarkless pathSingle (words ++ rest)
    simp only [List.append_assoc, List.cons_append] at read listed
    simp only [readAttribute, named, Option.bind_eq_bind, Option.bind_some, listed] at read
    cases Option.some.inj read
    exact ⟨foreign, words, ⟨name ++ '(' :: '\\' :: '.' :: (property ++ [')']), by simp⟩, rfl⟩

end Attributes

end MacroFree

end StyleMacros
