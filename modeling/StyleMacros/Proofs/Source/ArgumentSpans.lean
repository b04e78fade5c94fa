import StyleMacros.Proofs.Source.Names
import StyleMacros.Proofs.Source.Placement
import StyleMacros.Proofs.Source.Progress

/-!
# Spans of what is written in an attribute

What a reader answers has a character at least, so its span is not empty. The spans of an
argument, of its value and of the elements of a list are cut from what the attribute was read
from, and so they lie in the span of the attribute.
-/

set_option autoImplicit false

namespace StyleMacros

/-! ## Spans inside others -/

/-- The span covers a character at least and runs between two boundaries of the text. -/
structure Span.Points (span : Span) (source : Text) : Prop where
  nonempty : span.start < span.stop
  fits : span.Fits source

structure Span.Within (inner outer : Span) : Prop where
  start : outer.start ≤ inner.start
  stop : inner.stop ≤ outer.stop

theorem Span.Within.refl (span : Span) : span.Within span :=
  ⟨Nat.le_refl _, Nat.le_refl _⟩

/-- The span of something that was read behind `text` and in front of `rest`. -/
def Span.CutFrom (span : Span) (total : Nat) (text rest : Text) : Prop :=
  ∃ start stop, start <:+ text ∧ stop <:+ start ∧ stop.length < start.length ∧ rest <:+ stop ∧
    span = .between total start stop

namespace Span.CutFrom

variable {span : Span} {total : Nat} {source text start stop rest : Text}

theorem mono (outer : start <:+ text) (inner : rest <:+ stop)
    (cut : span.CutFrom total start stop) : span.CutFrom total text rest := by
  obtain ⟨first, last, front, suffix, shorter, back, exact⟩ := cut
  exact ⟨first, last, front.trans outer, suffix, shorter, inner.trans back, exact⟩

theorem whole (total : Nat) (suffix : rest <:+ text) (shorter : rest.length < text.length) :
    (Span.between total text rest).CutFrom total text rest :=
  ⟨text, rest, List.suffix_refl text, suffix, shorter, List.suffix_refl rest, rfl⟩

theorem points (inside : text <:+ source) (cut : span.CutFrom source.size text rest) :
    span.Points source ∧ span.Within (.between source.size text rest) := by
  obtain ⟨first, last, front, suffix, shorter, back, rfl⟩ := cut
  refine ⟨⟨?_, Span.between_fits (front.trans inside) suffix⟩, start_le_start_of_suffix front,
    start_le_start_of_suffix back⟩
  have room := Text.size_le_of_suffix (front.trans inside)
  obtain ⟨covered, rfl⟩ := suffix
  have positive : Text.size covered ≠ 0 := by
    intro zero
    rw [Text.eq_nil_of_size_eq_zero zero] at shorter
    exact absurd shorter (Nat.lt_irrefl _)
  rw [Text.size_append] at room
  simp only [Span.between, Text.size_append]
  omega

end Span.CutFrom

/-! ## Lists -/

def CutsParts {Element : Type} (total : Nat) (parts : Element → List Span)
    (read : Text → Option (Element × Text)) : Prop :=
  ∀ text element rest, read text = some (element, rest) →
    ∀ span ∈ parts element, span.CutFrom total text rest

section Lists

variable {Element : Type} {total : Nat} {parts : Element → List Span}
  {read : Text → Option (Element × Text)}

theorem CutsParts.readFurther (cuts : CutsParts total parts read) (leaves : LeavesSuffix read)
    (fuel : Nat) (text : Text) :
    ∀ element ∈ (readFurther read fuel text).1, ∀ span ∈ parts element,
      span.CutFrom total text (readFurther read fuel text).2 := by
  induction fuel generalizing text with
  | zero => simp [StyleMacros.readFurther]
  | succ fuel inductionHypothesis =>
      rw [StyleMacros.readFurther]
      split
      · rename_i behind comma
        have behindComma : skipTrivia behind <:+ text :=
          (skipTrivia_suffix behind).trans
            ((comma ▸ List.suffix_cons ',' behind).trans (skipTrivia_suffix text))
        split
        · rename_i first rest success
          have later := readFurther_suffix leaves fuel rest
          intro element member span part
          rcases List.mem_cons.mp member with rfl | member
          · exact (cuts _ _ _ success span part).mono behindComma later
          · exact (inductionHypothesis rest element member span part).mono
              ((leaves _ _ _ success).trans behindComma) (List.suffix_refl _)
        · simp
      · simp

theorem CutsParts.readSeparated (cuts : CutsParts total parts read) (leaves : LeavesSuffix read) :
    CutsParts total (fun elements => elements.flatMap parts) (readSeparated read) := by
  intro text elements rest success span part
  obtain ⟨⟨first, behind⟩, firstRead, exact⟩ := Option.bind_eq_some_iff.mp success
  cases Option.some.inj exact
  obtain ⟨element, member, inside⟩ := List.mem_flatMap.mp part
  rcases List.mem_cons.mp member with rfl | member
  · exact (cuts _ _ _ firstRead span inside).mono (List.suffix_refl text)
      (readFurther_suffix leaves behind.length behind)
  · exact (cuts.readFurther leaves behind.length behind element member span inside).mono
      (leaves _ _ _ firstRead) (List.suffix_refl _)

theorem CutsParts.readClosedList (cuts : CutsParts total parts read) (leaves : LeavesSuffix read)
    (close : Char) :
    CutsParts total (fun elements => elements.flatMap parts) (readClosedList read close) := by
  intro text elements rest success span part
  have start := skipTrivia_suffix text
  unfold StyleMacros.readClosedList at success
  cases separated : StyleMacros.readSeparated read (skipTrivia text) with
  | none =>
      simp only [separated] at success
      split at success
      · split at success
        · cases Option.some.inj success
          cases part
        · cases success
      · cases success
  | some found =>
      obtain ⟨listed, last⟩ := found
      simp only [separated] at success
      split at success
      · rename_i head behind before
        split at success
        · cases Option.some.inj success
          have ends : rest <:+ last :=
            (List.suffix_cons head rest).trans (before ▸ afterFinalComma_suffix last)
          exact (cuts.readSeparated leaves _ _ _ separated span part).mono start ends
        · cases success
      · cases success

end Lists

/-! ## Expressions -/

def Expression.partSpans (expression : Expression) : List Span :=
  expression.span ::
    match expression with
    | .array elements _ => elements.map Expression.span
    | _ => []

theorem readString_shorter {text rest value : Text} {interpolated : Bool}
    (success : readString text = some (value, interpolated, rest)) :
    rest.length < text.length := by
  unfold readString at success
  split at success
  · rename_i content
    obtain ⟨behind, closes, result⟩ := Option.map_eq_some_iff.mp success
    cases result
    exact Nat.lt_succ_of_le (Region.finish?_suffix closes).length_le
  · cases success

theorem readExpressionWithin_span {total fuel : Nat} {text rest : Text} {value : Expression}
    (success : readExpressionWithin total fuel text = some (value, rest)) :
    rest.length < text.length ∧ value.span = .between total text rest := by
  cases fuel with
  | zero => cases success
  | succ fuel =>
      simp only [readExpressionWithin, Option.orElse_eq_orElse, Option.orElse_eq_or,
        Option.or_eq_some_iff] at success
      rcases success with array | ⟨_, string | ⟨_, other⟩⟩
      · unfold readArrayLiteral at array
        split at array
        · rename_i content
          obtain ⟨⟨elements, behind⟩, list, result⟩ := Option.bind_eq_some_iff.mp array
          obtain ⟨last, ends, result⟩ := Option.bind_eq_some_iff.mp result
          cases Option.some.inj result
          have closed := readClosedList_leavesSuffix
            (readExpressionWithin_leavesSuffix total fuel) _ _ _ _ list
          exact ⟨Nat.lt_succ_of_le ((literalEnd?_suffix ends).trans closed).length_le, rfl⟩
        · cases array
      · obtain ⟨⟨content, interpolated, behind⟩, read, result⟩ := Option.bind_eq_some_iff.mp string
        obtain ⟨last, ends, result⟩ := Option.bind_eq_some_iff.mp result
        cases Option.some.inj result
        exact ⟨Nat.lt_of_le_of_lt (literalEnd?_suffix ends).length_le (readString_shorter read), rfl⟩
      · simp only [readOtherValue] at other
        split at other
        · rename_i shorter
          cases Option.some.inj other
          exact ⟨shorter, rfl⟩
        · cases other

theorem readExpressionWithin_cutsSpan (total fuel : Nat) :
    CutsParts total (fun value => [value.span]) (readExpressionWithin total fuel) := by
  intro text value rest success span part
  obtain ⟨shorter, exact⟩ := readExpressionWithin_span success
  rw [List.mem_singleton.mp part, exact]
  exact .whole total (readExpressionWithin_leavesSuffix total fuel _ _ _ success) shorter

theorem readExpression_cutsParts (total : Nat) :
    CutsParts total Expression.partSpans (readExpression total) := by
  intro text value rest success span part
  rcases List.mem_cons.mp part with rfl | part
  · exact readExpressionWithin_cutsSpan total _ _ _ _ success _ List.mem_cons_self
  · -- only a list has further parts, the spans of its elements
    simp only [readExpression, readExpressionWithin, Option.orElse_eq_orElse, Option.orElse_eq_or,
      Option.or_eq_some_iff] at success
    rcases success with array | ⟨_, string | ⟨_, other⟩⟩
    · unfold readArrayLiteral at array
      split at array
      · rename_i content
        obtain ⟨⟨elements, behind⟩, list, result⟩ := Option.bind_eq_some_iff.mp array
        obtain ⟨last, ends, result⟩ := Option.bind_eq_some_iff.mp result
        cases Option.some.inj result
        have cut := (readExpressionWithin_cutsSpan total (content.length + 1)).readClosedList
          (readExpressionWithin_leavesSuffix total (content.length + 1)) ']' _ _ _ list span
        have listed : span ∈ elements.flatMap fun value => [value.span] :=
          List.map_eq_flatMap ▸ part
        exact (cut listed).mono (List.suffix_cons '[' content) (literalEnd?_suffix ends)
      · cases array
    · obtain ⟨⟨content, interpolated, behind⟩, read, result⟩ := Option.bind_eq_some_iff.mp string
      obtain ⟨last, ends, result⟩ := Option.bind_eq_some_iff.mp result
      cases Option.some.inj result
      cases part
    · simp only [readOtherValue] at other
      split at other
      · cases Option.some.inj other
        cases part
      · cases other

/-! ## Arguments -/

def SourceArgument.partSpans (argument : SourceArgument) : List Span :=
  argument.span :: (argument.value.map Expression.partSpans).getD []

theorem readLabelledArgument_cutsParts (total : Nat) :
    CutsParts total SourceArgument.partSpans (readLabelledArgument total) := by
  intro text argument rest success
  obtain ⟨⟨label, behindLabel⟩, labelled, result⟩ := Option.bind_eq_some_iff.mp success
  have named := identifier?_leavesSuffix _ _ _ labelled
  simp only at result
  split at result
  · rename_i behind colon
    have afterColon : ':' :: behind <:+ text := (colon ▸ skipTrivia_suffix behindLabel).trans named
    have start : skipTrivia behind <:+ behind := skipTrivia_suffix behind
    have shorter : (skipTrivia behind).length < text.length :=
      Nat.lt_of_le_of_lt start.length_le (Nat.lt_of_lt_of_le (Nat.lt_succ_self _)
        afterColon.length_le)
    have startInside := start.trans ((List.suffix_cons ':' behind).trans afterColon)
    split at result
    · rename_i value last valued
      cases Option.some.inj result
      have suffix := readExpression_leavesSuffix total _ _ _ valued
      refine List.forall_mem_cons.mpr ⟨.whole total (suffix.trans startInside)
        (Nat.lt_of_le_of_lt suffix.length_le shorter), fun span part => ?_⟩
      exact (readExpression_cutsParts total _ _ _ valued span part).mono startInside
        (List.suffix_refl rest)
    · cases Option.some.inj result
      exact List.forall_mem_singleton.mpr (.whole total startInside shorter)
  · cases result

theorem readBareArgument_cutsParts (total : Nat) :
    CutsParts total SourceArgument.partSpans (readBareArgument total) := by
  intro text argument rest success
  obtain ⟨⟨value, behind⟩, valued, result⟩ := Option.bind_eq_some_iff.mp success
  cases Option.some.inj result
  have cuts := readExpression_cutsParts total _ _ _ valued
  have exact := (readExpressionWithin_span valued).2
  exact List.forall_mem_cons.mpr ⟨exact ▸ cuts value.span List.mem_cons_self, cuts⟩

theorem readArgument_cutsParts (total : Nat) :
    CutsParts total SourceArgument.partSpans (readArgument total) := by
  intro text argument rest success
  simp only [readArgument, Option.orElse_eq_orElse, Option.orElse_eq_or,
    Option.or_eq_some_iff] at success
  rcases success with labelled | ⟨_, bare⟩
  · exact readLabelledArgument_cutsParts total _ _ _ labelled
  · exact readBareArgument_cutsParts total _ _ _ bare

/-! ## Attributes -/

def Attribute.partSpans (written : Attribute) : List Span :=
  (written.arguments.getD []).flatMap SourceArgument.partSpans

theorem readAttribute_cutsParts (total : Nat) :
    CutsParts total Attribute.partSpans (readAttribute total) := by
  intro text written rest success span part
  unfold readAttribute at success
  split at success
  · rename_i content
    obtain ⟨⟨name, behind⟩, named, result⟩ := Option.bind_eq_some_iff.mp success
    simp only at result
    split at result
    · rename_i arguments last listed
      cases Option.some.inj result
      unfold readArguments at listed
      split at listed
      · rename_i inner
        have front : inner <:+ '@' :: content :=
          ((List.suffix_cons '(' inner).trans (identifier?_leavesSuffix _ _ _ named)).trans
            (List.suffix_cons '@' content)
        exact ((readArgument_cutsParts total).readClosedList (readArgument_leavesSuffix total) ')'
          _ _ _ listed span part).mono front (List.suffix_refl rest)
      · cases listed
    · cases Option.some.inj result
      cases part
  · cases success

theorem exists_head_of_malformed {total : Nat} {text rest : Text} {written : Attribute}
    (success : readAttribute total text = some (written, rest))
    (malformed : written.malformedArguments = true) :
    ∃ head behind, rest = head :: behind ∧ head.utf8Size = 1 := by
  have opens : opensArguments rest = true := by
    unfold readAttribute at success
    split at success
    · obtain ⟨⟨name, behind⟩, named, result⟩ := Option.bind_eq_some_iff.mp success
      simp only at result
      split at result
      · cases Option.some.inj result
        cases malformed
      · cases Option.some.inj result
        exact malformed
    · cases success
  unfold opensArguments at opens
  cases rest with
  | nil => cases opens
  | cons head behind =>
      refine ⟨head, behind, rfl, ?_⟩
      cases blank : isInlineBlank head with
      | true =>
          simp only [isInlineBlank, Bool.or_eq_true, decide_eq_true_eq] at blank
          rcases blank with rfl | rfl
          · rfl
          · rfl
      | false =>
          rw [List.dropWhile_cons_of_neg (by simp [blank]), List.head?_cons,
            decide_eq_true_eq] at opens
          rw [Option.some.inj opens]
          rfl

/-- Nothing that a diagnostic about the attribute points to is empty, and its parts lie in it. -/
structure Attribute.PartsPlaced (written : Attribute) (source : Text) : Prop where
  whole : written.span.Points source
  parts : ∀ span ∈ written.partSpans, span.Points source ∧ span.Within written.span
  behind : written.malformedArguments = true →
    Span.Points ⟨written.span.stop, written.span.stop + 1⟩ source

theorem readAttribute_partsPlaced {source text rest : Text} {written : Attribute}
    (inside : text <:+ source) (success : readAttribute source.size text = some (written, rest)) :
    written.PartsPlaced source := by
  have exact := (readAttribute_placed inside success).2
  have suffix := readAttribute_leavesSuffix source.size _ _ _ success
  have whole := Span.CutFrom.whole source.size suffix (readAttribute_shorter success)
  refine ⟨exact ▸ (whole.points inside).1, fun span part => ?_, fun malformed => ?_⟩
  · rw [exact]
    exact (readAttribute_cutsParts source.size _ _ _ success span part).points inside
  · obtain ⟨head, behind, rfl, single⟩ := exists_head_of_malformed success malformed
    have found := charAt_of_suffix (suffix.trans inside)
    have stop : written.span.stop = source.size - Text.size (head :: behind) := by rw [exact]; rfl
    rw [← stop] at found
    exact ⟨Nat.lt_succ_self _, Nat.le_succ _, found.boundary, single ▸ found.boundary_behind⟩

/-! ## Sites -/

theorem ReadsInTurn.exists_read {Element : Type} {read : Text → Option (Element × Text)}
    (leaves : LeavesSuffix read) {text last : Text} {elements : List Element}
    (run : ReadsInTurn read text elements last) :
    ∀ element ∈ elements, ∃ start rest, start <:+ text ∧ read start = some (element, rest) := by
  induction run with
  | done text => simp
  | @next text rest last first others success later inductionHypothesis =>
      have skipped := skipTrivia_suffix text
      refine List.forall_mem_cons.mpr ⟨⟨_, rest, skipped, success⟩, fun element member => ?_⟩
      obtain ⟨start, behind, inner, read⟩ := inductionHypothesis element member
      exact ⟨start, behind, inner.trans ((leaves _ _ _ success).trans skipped), read⟩

theorem readUnsupported_shorter {total : Nat} {text rest word : Text} {span : Span}
    (success : readUnsupported total text = some (word, span, rest)) :
    rest.length < text.length := by
  unfold readUnsupported at success
  obtain ⟨⟨found, last⟩, named, result⟩ := Option.bind_eq_some_iff.mp success
  cases Option.some.inj result
  have front := (skipTrivia_suffix _).trans
    (readMany_suffix readModifier_leavesSuffix text.length text)
  have shorter : rest.length < (skipTrivia (readMany readModifier text.length text).2).length := by
    rw [← Text.append_of_identifier? named, List.length_append]
    have nonempty : word ≠ [] := by
      rintro rfl
      cases identifier?_answers _ _ _ named
    have positive := List.length_pos_iff.mpr nonempty
    omega
  exact Nat.lt_of_lt_of_le shorter front.length_le

theorem readTarget_word {source text word : Text} {span : Span} (inside : text <:+ source)
    (read : (readTarget source.size text).1 = .word word span) : span.Points source := by
  unfold readTarget at read
  split at read
  · cases read
  · split at read
    · rename_i found place rest success
      cases read
      obtain ⟨suffix, exact⟩ := readUnsupported_exposes_span success
      have cut := Span.CutFrom.whole source.size suffix (readUnsupported_shorter success)
      exact exact ▸ (cut.points inside).1
    · cases read

structure Site.PartsPlaced (site : Site) (source : Text) : Prop where
  attributes : ∀ written ∈ site.attributes, written.PartsPlaced source
  word : ∀ word span, site.target = .word word span → span.Points source
  whole : site.span.Points source

theorem readSite_partsPlaced {source text rest : Text} {site : Site} (inside : text <:+ source)
    (success : readSite source.size text = some (site, rest)) : site.PartsPlaced source := by
  have leaves := readAttribute_leavesSuffix source.size
  obtain ⟨first, others, behind, last, listed, firstRead, later, -, targetRead, spanExact⟩ :=
    readSite_exposes_parts success
  have run : ReadsInTurn (readAttribute source.size) text site.attributes last :=
    listed ▸ .of_readAttribute firstRead later
  have targetInside : skipTrivia last <:+ source :=
    ((skipTrivia_suffix last).trans (run.suffix leaves)).trans inside
  have suffix := readSite_leavesSuffix source.size _ _ _ success
  have whole := Span.CutFrom.whole source.size suffix (readSite_shorter success)
  refine ⟨?_, fun word span same => ?_, spanExact ▸ (whole.points inside).1⟩
  · intro written member
    obtain ⟨start, end_, startInside, read⟩ := run.exists_read leaves written member
    exact readAttribute_partsPlaced (startInside.trans inside) read
  · apply readTarget_word targetInside
    rw [targetRead]
    exact same

theorem readSites_partsPlaced {source : Text} {site : Site} (member : site ∈ readSites source) :
    site.PartsPlaced source := by
  obtain ⟨start, rest, inside, success⟩ := exists_readSite_of_mem member
  exact readSite_partsPlaced inside success

end StyleMacros
