import StyleMacros.Source.Site
import StyleMacros.Proofs.Source.Placement
import StyleMacros.Proofs.Source.Printing

/-!
# Names that are read

The name of a declaration that is read is a dotted name, and the names of its generic parameters
are identifiers, whatever the text around them.
-/

set_option autoImplicit false

namespace StyleMacros

variable {Element : Type}

def Answers (read : Text → Option (Element × Text)) (Good : Element → Prop) : Prop :=
  ∀ text element rest, read text = some (element, rest) → Good element

/-! ## Words and lists -/

theorem identifier?_answers : Answers Text.identifier? fun name => name.isIdentifier = true := by
  intro text name rest success
  cases text with
  | nil => cases success
  | cons head tail =>
      simp only [Text.identifier?] at success
      split at success
      · rename_i starts
        cases Option.some.inj success
        simp only [Text.isIdentifier, Bool.and_eq_true, List.all_eq_true]
        exact ⟨starts, fun char member => List.mem_takeWhile_imp member⟩
      · cases success

section Lists

variable {read : Text → Option (Element × Text)} {Good : Element → Prop}

theorem Answers.readFurther (answers : Answers read Good) (fuel : Nat) (text : Text) :
    ∀ element ∈ (readFurther read fuel text).1, Good element := by
  induction fuel generalizing text with
  | zero => simp [StyleMacros.readFurther]
  | succ fuel inductionHypothesis =>
      rw [StyleMacros.readFurther]
      split
      · split
        · rename_i first rest success
          intro element member
          rcases List.mem_cons.mp member with rfl | member
          · exact answers _ _ _ success
          · exact inductionHypothesis rest element member
        · simp
      · simp

theorem Answers.readSeparated (answers : Answers read Good) :
    Answers (readSeparated read) fun elements => ∀ element ∈ elements, Good element := by
  intro text elements rest success
  obtain ⟨⟨first, later⟩, firstRead, exact⟩ := Option.bind_eq_some_iff.mp success
  cases Option.some.inj exact
  intro element member
  rcases List.mem_cons.mp member with rfl | member
  · exact answers _ _ _ firstRead
  · exact answers.readFurther _ _ element member

end Lists

/-! ## Declarations -/

theorem exists_members_of_afterMembers (fuel : Nat) (text : Text) :
    ∃ members, (∀ word ∈ members, word.isIdentifier = true) ∧
      text = memberText members ++ afterMembers fuel text := by
  have stop (text : Text) : ∃ members, (∀ word ∈ members, Text.isIdentifier word = true) ∧
      text = memberText members ++ text := ⟨[], by simp, rfl⟩
  induction fuel generalizing text with
  | zero => exact stop text
  | succ fuel inductionHypothesis =>
      unfold afterMembers
      split
      · rename_i behind
        split
        · rename_i word rest named
          obtain ⟨members, words, split⟩ := inductionHypothesis rest
          refine ⟨word :: members, ?_, ?_⟩
          · intro other member
            rcases List.mem_cons.mp member with rfl | member
            · exact identifier?_answers _ _ _ named
            · exact words other member
          · rw [memberText_cons, List.cons_append, List.append_assoc, ← split,
              Text.append_of_identifier? named]
        · exact stop _
      · exact stop text

theorem readDottedName_answers :
    Answers readDottedName fun name => ∃ path : DottedName, path.text = name := by
  intro text name rest success
  obtain ⟨⟨first, behind⟩, named, exact⟩ := Option.bind_eq_some_iff.mp success
  cases Option.some.inj exact
  obtain ⟨members, words, split⟩ := exists_members_of_afterMembers behind.length behind
  have whole : ∀ word ∈ first :: members, Text.isIdentifier word = true := by
    intro word member
    rcases List.mem_cons.mp member with rfl | member
    · exact identifier?_answers _ _ _ named
    · exact words word member
  refine ⟨⟨first, members, whole⟩, ?_⟩
  have front : text = first ++ memberText members ++ afterMembers behind.length behind := by
    rw [List.append_assoc, ← split, Text.append_of_identifier? named]
  rw [front, Text.before_append]
  rfl

theorem readGenericParameter_answers :
    Answers readGenericParameter fun parameter => parameter.name.isIdentifier = true := by
  intro text parameter rest success
  obtain ⟨⟨name, behind⟩, named, result⟩ := Option.bind_eq_some_iff.mp success
  have word := identifier?_answers _ _ _ named
  simp only at result
  split at result
  · split at result <;> (cases Option.some.inj result; exact word)
  · cases Option.some.inj result
    exact word

theorem readGenericParameters_answers : Answers readGenericParameters fun parameters =>
    ∀ parameter ∈ parameters, parameter.name.isIdentifier = true := by
  intro text parameters rest success
  unfold readGenericParameters at success
  split at success
  · obtain ⟨⟨listed, behind⟩, separated, result⟩ := Option.bind_eq_some_iff.mp success
    simp only at result
    split at result
    · cases Option.some.inj result
      exact readGenericParameter_answers.readSeparated _ _ _ separated
    · cases result
  · cases success

/-- The names that expansion takes from a declaration. -/
structure SourceDeclaration.Named (written : SourceDeclaration) : Prop where
  name : ∃ path : DottedName, path.text = written.name
  parameters : ∀ parameter ∈ written.genericParameters, parameter.name.isIdentifier = true

theorem readDeclaration_answers (total : Nat) :
    Answers (readDeclaration total) SourceDeclaration.Named := by
  intro text written rest success
  unfold readDeclaration at success
  obtain ⟨⟨keyword, behindKeyword⟩, _, success⟩ := Option.bind_eq_some_iff.mp success
  obtain ⟨⟨name, behindName⟩, named, success⟩ := Option.bind_eq_some_iff.mp success
  obtain ⟨⟨body, behindBody⟩, _, result⟩ := Option.bind_eq_some_iff.mp success
  cases Option.some.inj result
  refine ⟨readDottedName_answers _ _ _ named, ?_⟩
  intro parameter member
  cases parameters : readGenericParameters (skipTrivia behindName) with
  | none => simp [parameters] at member
  | some found =>
      simp only [parameters, Option.getD_some] at member
      exact readGenericParameters_answers _ _ _ parameters parameter member

/-! ## Sites -/

theorem readSite_answers (total : Nat) : Answers (readSite total) fun site =>
    ∀ written, site.target = .declaration written → written.Named := by
  intro text site rest success written target
  obtain ⟨_, _, _, last, -, -, -, -, targetRead, -⟩ := readSite_exposes_parts success
  rw [target] at targetRead
  unfold readTarget at targetRead
  split at targetRead
  · rename_i declared _ read
    cases targetRead
    exact readDeclaration_answers total _ _ _ read
  · split at targetRead <;> cases targetRead

theorem exists_readSite_of_mem {total fuel : Nat} {text : Text} {site : Site}
    (member : site ∈ readSitesWithin total fuel text) :
    ∃ start rest, start <:+ text ∧ readSite total start = some (site, rest) := by
  induction fuel generalizing text with
  | zero => cases member
  | succ fuel inductionHypothesis =>
      have skipped := skipTrivia_suffix text
      rw [readSitesWithin] at member
      split at member
      · cases member
      · rename_i head tail remaining
        rw [remaining] at skipped
        split at member
        · rename_i first behind success
          rcases List.mem_cons.mp member with rfl | member
          · exact ⟨head :: tail, behind, skipped, success⟩
          · obtain ⟨start, rest, inside, read⟩ := inductionHypothesis member
            have left := readSite_leavesSuffix total _ _ _ success
            exact ⟨start, rest, inside.trans (left.trans skipped), read⟩
        · obtain ⟨start, rest, inside, read⟩ := inductionHypothesis member
          exact ⟨start, rest, inside.trans ((afterSkipped_suffix _).trans skipped), read⟩

theorem readSites_named {source : Text} {site : Site} (member : site ∈ readSites source)
    {written : SourceDeclaration} (target : site.target = .declaration written) :
    written.Named := by
  obtain ⟨start, rest, -, success⟩ := exists_readSite_of_mem member
  exact readSite_answers _ _ _ _ success written target

end StyleMacros
