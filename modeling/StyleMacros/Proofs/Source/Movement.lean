import StyleMacros.Proofs.Source.Placement
import StyleMacros.Proofs.Source.Progress
import StyleMacros.Proofs.Text.Offsets

/-!
# Reading does not depend on the place

A reader takes the size of the whole source only to work out spans. If more text stands in front
of what it reads, it reads the same, and every span lies further on by the size of that text.
-/

set_option autoImplicit false

namespace StyleMacros

/-! ## Moved spans -/

def Span.move (offset : Nat) (span : Span) : Span :=
  ⟨offset + span.start, offset + span.stop⟩

mutual

def Expression.move (offset : Nat) : Expression → Expression
  | .string value interpolated span => .string value interpolated (span.move offset)
  | .array elements span => .array (Expression.moveAll offset elements) (span.move offset)
  | .other text span => .other text (span.move offset)

def Expression.moveAll (offset : Nat) : List Expression → List Expression
  | [] => []
  | first :: others => first.move offset :: Expression.moveAll offset others

end

def SourceArgument.move (offset : Nat) (written : SourceArgument) : SourceArgument :=
  { written with
    value := written.value.map (Expression.move offset)
    span := written.span.move offset }

def Attribute.move (offset : Nat) (written : Attribute) : Attribute :=
  { written with
    arguments := written.arguments.map (List.map (SourceArgument.move offset))
    span := written.span.move offset }

def SourceDeclaration.move (offset : Nat) (written : SourceDeclaration) : SourceDeclaration :=
  { written with body := written.body.move offset, span := written.span.move offset }

def Target.move (offset : Nat) : Target → Target
  | .declaration written => .declaration (written.move offset)
  | Target.word written span => .word written (span.move offset)
  | .nothing => .nothing

def Site.move (offset : Nat) (site : Site) : Site :=
  ⟨site.attributes.map (Attribute.move offset), site.target.move offset, site.span.move offset⟩

theorem Expression.moveAll_eq_map (offset : Nat) (elements : List Expression) :
    Expression.moveAll offset elements = elements.map (Expression.move offset) := by
  induction elements with
  | nil => rfl
  | cons first others inductionHypothesis =>
      rw [Expression.moveAll, List.map_cons, inductionHypothesis]

theorem Span.between_add {offset total : Nat} {text rest : Text} (inside : text.size ≤ total)
    (suffix : rest <:+ text) :
    Span.between (offset + total) text rest = (Span.between total text rest).move offset := by
  have sizes := Text.size_le_of_suffix suffix
  simp only [Span.between, Span.move, Span.mk.injEq]
  omega

/-! ## Moved readers -/

variable {Element : Type}

/-- The reader `later` reads what `read` reads, with everything moved. -/
def MovesTo (move : Element → Element) (total : Nat)
    (read later : Text → Option (Element × Text)) : Prop :=
  ∀ text, text.size ≤ total → later text = (read text).map (Prod.map move id)

section Sequences

variable {move : Element → Element} {total : Nat} {read later : Text → Option (Element × Text)}

theorem MovesTo.readMany (moves : MovesTo move total read later) (leaves : LeavesSuffix read)
    (fuel : Nat) {text : Text} (inside : text.size ≤ total) :
    readMany later fuel text = Prod.map (List.map move) id (readMany read fuel text) := by
  induction fuel generalizing text with
  | zero => rfl
  | succ fuel inductionHypothesis =>
      have skipped := Text.size_le_of_suffix (skipTrivia_suffix text)
      rw [StyleMacros.readMany, StyleMacros.readMany, moves _ (Nat.le_trans skipped inside)]
      cases success : read (skipTrivia text) with
      | none => rfl
      | some found =>
          obtain ⟨first, rest⟩ := found
          have suffix := Text.size_le_of_suffix (leaves _ _ _ success)
          simp only [Option.map_some, Prod.map_apply, id_eq]
          rw [inductionHypothesis (by omega)]
          rfl

theorem MovesTo.readFurther (moves : MovesTo move total read later) (leaves : LeavesSuffix read)
    (fuel : Nat) {text : Text} (inside : text.size ≤ total) :
    readFurther later fuel text = Prod.map (List.map move) id (readFurther read fuel text) := by
  induction fuel generalizing text with
  | zero => rfl
  | succ fuel inductionHypothesis =>
      have skipped := skipTrivia_suffix text
      rw [StyleMacros.readFurther, StyleMacros.readFurther]
      split
      · rename_i behind comma
        rw [comma] at skipped
        have element := Text.size_le_of_suffix
          ((skipTrivia_suffix behind).trans ((List.suffix_cons ',' behind).trans skipped))
        rw [moves _ (Nat.le_trans element inside)]
        cases success : read (skipTrivia behind) with
        | none => rfl
        | some found =>
            obtain ⟨first, rest⟩ := found
            have suffix := Text.size_le_of_suffix (leaves _ _ _ success)
            simp only [Option.map_some, Prod.map_apply, id_eq]
            rw [inductionHypothesis (by omega)]
            rfl
      · rfl

theorem MovesTo.readSeparated (moves : MovesTo move total read later)
    (leaves : LeavesSuffix read) :
    MovesTo (List.map move) total (readSeparated read) (readSeparated later) := by
  intro text inside
  rw [StyleMacros.readSeparated, StyleMacros.readSeparated, moves text inside]
  cases success : read text with
  | none => rfl
  | some found =>
      obtain ⟨first, rest⟩ := found
      have suffix := Text.size_le_of_suffix (leaves _ _ _ success)
      have others := moves.readFurther leaves rest.length (Nat.le_trans suffix inside)
      simp only [Option.map_some, Prod.map_apply, id_eq, Option.bind_eq_bind, Option.bind_some, Option.pure_def,
        others]
      rfl

theorem MovesTo.readClosedList (moves : MovesTo move total read later)
    (leaves : LeavesSuffix read) (close : Char) :
    MovesTo (List.map move) total (readClosedList read close) (readClosedList later close) := by
  intro text inside
  have start := Text.size_le_of_suffix (skipTrivia_suffix text)
  simp only [StyleMacros.readClosedList]
  rw [moves.readSeparated leaves _ (Nat.le_trans start inside)]
  cases separated : StyleMacros.readSeparated read (skipTrivia text) with
  | none =>
      simp only [Option.map_none]
      cases skipTrivia text with
      | nil => rfl
      | cons head behind =>
          simp only
          split <;> rfl
  | some found =>
      obtain ⟨elements, rest⟩ := found
      simp only [Option.map_some, Prod.map_apply, id_eq]
      cases afterFinalComma rest with
      | nil => rfl
      | cons head behind =>
          simp only
          split <;> rfl

end Sequences

/-! ## Expressions -/

section Readers

variable {offset total : Nat}

theorem readArrayLiteral_moves {read later : Text → Option (Expression × Text)}
    (moves : MovesTo (Expression.move offset) total read later) (leaves : LeavesSuffix read) :
    MovesTo (Expression.move offset) total (readArrayLiteral total read)
      (readArrayLiteral (offset + total) later) := by
  intro text inside
  have suffix := readArrayLiteral_leavesSuffix total leaves text
  unfold readArrayLiteral at suffix ⊢
  split
  · rename_i content
    have contentInside : Text.size content ≤ total := by
      rw [Text.size_cons] at inside
      omega
    simp only at suffix ⊢
    rw [moves.readClosedList leaves ']' content contentInside]
    cases listed : readClosedList read ']' content with
    | none => rfl
    | some found =>
        obtain ⟨elements, rest⟩ := found
        rw [listed] at suffix
        simp only [Option.map_some, Prod.map_apply, id_eq, Option.bind_eq_bind,
          Option.bind_some, Option.pure_def] at suffix ⊢
        cases ends : literalEnd? rest with
        | none => rfl
        | some behind =>
            rw [ends] at suffix
            simp only [Option.bind_some, Option.map_some, Prod.map_apply, id_eq, Expression.move,
              Expression.moveAll_eq_map]
            rw [Span.between_add inside (suffix _ _ rfl)]
  · rfl

theorem readStringLiteral_moves :
    MovesTo (Expression.move offset) total (readStringLiteral total)
      (readStringLiteral (offset + total)) := by
  intro text inside
  have suffix := readStringLiteral_leavesSuffix total text
  unfold readStringLiteral at suffix ⊢
  cases string : readString text with
  | none => rfl
  | some found =>
      obtain ⟨value, interpolated, rest⟩ := found
      rw [string] at suffix
      simp only [Option.bind_eq_bind, Option.bind_some, Option.pure_def] at suffix ⊢
      cases ends : literalEnd? rest with
      | none => rfl
      | some behind =>
          rw [ends] at suffix
          simp only [Option.bind_some, Option.map_some, Prod.map_apply, id_eq, Expression.move]
          rw [Span.between_add inside (suffix _ _ rfl)]

theorem readOtherValue_moves :
    MovesTo (Expression.move offset) total (readOtherValue total)
      (readOtherValue (offset + total)) := by
  intro text inside
  simp only [readOtherValue]
  split
  · simp only [Option.map_some, Prod.map_apply, id_eq, Expression.move]
    rw [Span.between_add inside (Region.afterContent_suffix .value text)]
  · rfl

theorem readExpressionWithin_moves (fuel : Nat) :
    MovesTo (Expression.move offset) total (readExpressionWithin total fuel)
      (readExpressionWithin (offset + total) fuel) := by
  induction fuel with
  | zero => intro text inside; rfl
  | succ fuel inductionHypothesis =>
      intro text inside
      have array := readArrayLiteral_moves inductionHypothesis
        (readExpressionWithin_leavesSuffix total fuel) text inside
      simp only [readExpressionWithin, Option.orElse_eq_orElse, Option.orElse_eq_or, array,
        readStringLiteral_moves text inside, readOtherValue_moves text inside, Option.map_or]

theorem readExpression_moves :
    MovesTo (Expression.move offset) total (readExpression total)
      (readExpression (offset + total)) := by
  intro text inside
  exact readExpressionWithin_moves (text.length + 1) text inside

/-! ## Attributes -/

theorem readLabelledArgument_moves :
    MovesTo (SourceArgument.move offset) total (readLabelledArgument total)
      (readLabelledArgument (offset + total)) := by
  intro text inside
  have suffix := readLabelledArgument_leavesSuffix total text
  unfold readLabelledArgument at suffix ⊢
  cases labelled : Text.identifier? text with
  | none => rfl
  | some found =>
      obtain ⟨label, rest⟩ := found
      rw [labelled] at suffix
      have named := identifier?_leavesSuffix _ _ _ labelled
      simp only [Option.bind_eq_bind, Option.bind_some, Option.pure_def] at suffix ⊢
      split
      · rename_i behind colon
        rw [colon] at suffix
        have start : skipTrivia behind <:+ text :=
          ((skipTrivia_suffix behind).trans (List.suffix_cons ':' behind)).trans
            ((colon ▸ skipTrivia_suffix rest).trans named)
        simp only at suffix ⊢
        rw [readExpression_moves _ (Nat.le_trans (Text.size_le_of_suffix start) inside)]
        cases valued : readExpression total (skipTrivia behind) with
        | none =>
            simp only [Option.map_none]
            rw [Span.between_add inside start]
            rfl
        | some found =>
            obtain ⟨value, last⟩ := found
            rw [valued] at suffix
            simp only [Option.map_some, Prod.map_apply, id_eq]
            rw [Span.between_add inside (suffix _ _ rfl)]
            rfl
      · rfl

theorem readBareArgument_moves :
    MovesTo (SourceArgument.move offset) total (readBareArgument total)
      (readBareArgument (offset + total)) := by
  intro text inside
  rw [readBareArgument, readBareArgument, readExpression_moves text inside]
  cases valued : readExpression total text with
  | none => rfl
  | some found =>
      obtain ⟨value, rest⟩ := found
      simp only [Option.map_some, Prod.map_apply, id_eq, Option.bind_eq_bind, Option.bind_some, Option.pure_def]
      rw [Span.between_add inside (readExpression_leavesSuffix total _ _ _ valued)]
      rfl

theorem readArgument_moves :
    MovesTo (SourceArgument.move offset) total (readArgument total)
      (readArgument (offset + total)) := by
  intro text inside
  simp only [readArgument, Option.orElse_eq_orElse, Option.orElse_eq_or,
    readLabelledArgument_moves text inside, readBareArgument_moves text inside, Option.map_or]

theorem readArguments_moves :
    MovesTo (List.map (SourceArgument.move offset)) total (readArguments total)
      (readArguments (offset + total)) := by
  intro text inside
  unfold readArguments
  split
  · rename_i content
    rw [Text.size_cons] at inside
    exact readArgument_moves.readClosedList (readArgument_leavesSuffix total) ')' content (by omega)
  · rfl

theorem readAttribute_moves :
    MovesTo (Attribute.move offset) total (readAttribute total)
      (readAttribute (offset + total)) := by
  intro text inside
  have suffix := readAttribute_leavesSuffix total text
  unfold readAttribute at suffix ⊢
  split
  · rename_i content
    simp only at suffix ⊢
    cases named : Text.identifier? content with
    | none => rfl
    | some found =>
        obtain ⟨name, rest⟩ := found
        rw [named] at suffix
        have contentSize := Text.size_le_of_suffix (identifier?_leavesSuffix _ _ _ named)
        rw [Text.size_cons] at inside
        simp only [Option.bind_eq_bind, Option.bind_some, Option.pure_def] at suffix ⊢
        rw [readArguments_moves rest (by omega)]
        cases listed : readArguments total rest with
        | none =>
            rw [listed] at suffix
            simp only [Option.map_none, Option.map_some, Prod.map_apply, id_eq]
            rw [Span.between_add inside (suffix _ _ rfl)]
            rfl
        | some found =>
            obtain ⟨arguments, last⟩ := found
            rw [listed] at suffix
            simp only [Option.map_some, Prod.map_apply, id_eq]
            rw [Span.between_add inside (suffix _ _ rfl)]
            rfl
  · rfl

/-! ## Declarations -/

theorem readBody_moves : MovesTo (Span.move offset) total (readBody total)
    (readBody (offset + total)) := by
  intro text inside
  unfold readBody
  split
  · rename_i content
    rw [Text.size_cons] at inside
    cases closes : Region.body.finish? content with
    | none => rfl
    | some rest =>
        simp only [Option.bind_eq_bind, Option.bind_some, Option.pure_def, Option.map_some, Prod.map_apply, id_eq]
        rw [Span.between_add (by omega) (Region.afterContent_suffix .body content)]
  · rfl

/-- The body is read from an end part of what stands behind the name. -/
theorem behindHeader_suffix (text : Text) :
    skipTrivia (readOptional readRequirements (readOptional readInheritance
      (readOptional readGenericParameters text).2).2).2 <:+ text :=
  (((skipTrivia_suffix _).trans (readOptional_suffix readRequirements_leavesSuffix _)).trans
    (readOptional_suffix readInheritance_leavesSuffix _)).trans
    (readOptional_suffix readGenericParameters_leavesSuffix _)

theorem readDeclaration_moves :
    MovesTo (SourceDeclaration.move offset) total (readDeclaration total)
      (readDeclaration (offset + total)) := by
  intro text inside
  have suffix := readDeclaration_leavesSuffix total text
  unfold readDeclaration at suffix ⊢
  have modifiers := readMany_suffix readModifier_leavesSuffix text.length text
  cases keyed : readKeyword (skipTrivia (readMany readModifier text.length text).2) with
  | none =>
      simp only [keyed]
      rfl
  | some found =>
      obtain ⟨keyword, rest⟩ := found
      have keyword := ((readKeyword_leavesSuffix _ _ _ keyed).trans (skipTrivia_suffix _)).trans
        modifiers
      simp only [keyed, Option.bind_eq_bind, Option.bind_some] at suffix ⊢
      cases named : readDottedName (skipTrivia rest) with
      | none => rfl
      | some found =>
          obtain ⟨name, behind⟩ := found
          have header := (behindHeader_suffix behind).trans
            (((readDottedName_leavesSuffix _ _ _ named).trans (skipTrivia_suffix _)).trans keyword)
          simp only [named, Option.bind_some] at suffix ⊢
          rw [readBody_moves _ (Nat.le_trans (Text.size_le_of_suffix header) inside)]
          cases bodied : readBody total (skipTrivia (readOptional readRequirements
              (readOptional readInheritance (readOptional readGenericParameters behind).2).2).2) with
          | none => rfl
          | some found =>
              obtain ⟨body, last⟩ := found
              rw [bodied] at suffix
              simp only [Option.map_some, Prod.map_apply, id_eq, Option.bind_some]
              rw [Span.between_add inside (suffix _ _ rfl)]
              rfl

theorem readUnsupported_moves {text : Text} (inside : text.size ≤ total) :
    readUnsupported (offset + total) text =
      (readUnsupported total text).map fun found => (found.1, found.2.1.move offset, found.2.2) := by
  have exposed := fun word span rest
      (success : readUnsupported total text = some (word, span, rest)) =>
    (readUnsupported_exposes_span success).1
  unfold readUnsupported at exposed ⊢
  cases named : (skipTrivia (readMany readModifier text.length text).2).identifier? with
  | none =>
      simp only [named]
      rfl
  | some found =>
      obtain ⟨word, rest⟩ := found
      simp only [named, Option.bind_eq_bind, Option.bind_some] at exposed ⊢
      rw [Span.between_add inside (exposed _ _ _ rfl)]
      rfl

theorem readTarget_moves {text : Text} (inside : text.size ≤ total) :
    readTarget (offset + total) text =
      ((readTarget total text).1.move offset, (readTarget total text).2) := by
  unfold readTarget
  rw [readDeclaration_moves text inside]
  cases readDeclaration total text with
  | some found => rfl
  | none =>
      simp only [Option.map_none]
      rw [readUnsupported_moves inside]
      cases readUnsupported total text <;> rfl

/-! ## Sites -/

theorem readSite_moves :
    MovesTo (Site.move offset) total (readSite total) (readSite (offset + total)) := by
  intro text inside
  unfold readSite
  rw [readAttribute_moves text inside]
  cases firstRead : readAttribute total text with
  | none => rfl
  | some found =>
      obtain ⟨first, behind⟩ := found
      have firstSuffix := readAttribute_leavesSuffix total _ _ _ firstRead
      have behindInside := Nat.le_trans (Text.size_le_of_suffix firstSuffix) inside
      have run := readMany_suffix (readAttribute_leavesSuffix total) behind.length behind
      simp only [Option.map_some, Prod.map_apply, id_eq]
      rw [readAttribute_moves.readMany (readAttribute_leavesSuffix total) behind.length
        behindInside]
      generalize readMany (readAttribute total) behind.length behind = read at run ⊢
      obtain ⟨others, last⟩ := read
      have targetSuffix := (skipTrivia_suffix last).trans run
      have targetInside := Nat.le_trans (Text.size_le_of_suffix targetSuffix) behindInside
      have site := (readTarget_suffix total (skipTrivia last)).trans
        (targetSuffix.trans firstSuffix)
      have same : ((first.move offset :: others.map (Attribute.move offset)).any fun written =>
          written.macroName?.isSome) =
          (first :: others).any fun written => written.macroName?.isSome := by
        rw [← List.map_cons, List.any_map]
        rfl
      simp only [Prod.map_apply, id_eq]
      rw [same, readTarget_moves targetInside]
      split
      · simp only [Option.map_some, Prod.map_apply, id_eq]
        rw [Span.between_add inside site]
        rfl
      · rfl

/-- Text in front of the whole moves the sites read from an end part and changes nothing else. -/
theorem sitesFrom_add (offset total : Nat) {text : Text} (inside : text.size ≤ total) :
    sitesFrom (offset + total) text = (sitesFrom total text).map (Site.move offset) := by
  -- the text gets shorter with every site and with everything that is passed over
  induction length : text.length using Nat.strongRecOn generalizing text with
  | ind length inductionHypothesis =>
      subst length
      have skipped := skipTrivia_suffix text
      rw [sitesFrom_eq, sitesFrom_eq total]
      cases remaining : skipTrivia text with
      | nil => rfl
      | cons head rest =>
          rw [remaining] at skipped
          have shorter := skipped.length_le
          have headInside := Nat.le_trans (Text.size_le_of_suffix skipped) inside
          simp only
          rw [readSite_moves _ headInside]
          cases success : readSite total (head :: rest) with
          | some found =>
              obtain ⟨site, behind⟩ := found
              have less := readSite_shorter success
              have suffix := readSite_leavesSuffix total _ _ _ success
              simp only [Option.map_some, Prod.map_apply, id_eq, List.map_cons]
              rw [inductionHypothesis behind.length (by omega)
                (Nat.le_trans (Text.size_le_of_suffix suffix) headInside) rfl]
          | none =>
              have less := afterSkipped_shorter head rest
              rw [List.length_cons] at shorter
              exact inductionHypothesis _ (by omega) (Nat.le_trans (Text.size_le_of_suffix
                (afterSkipped_suffix (head :: rest))) headInside) rfl

end Readers

end StyleMacros
