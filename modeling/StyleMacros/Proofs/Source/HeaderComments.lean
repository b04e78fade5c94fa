import StyleMacros.Proofs.Source.Attributes
import StyleMacros.Proofs.Source.LaidHeaders

/-!
# Comments in a header

A comment with blanks around it can be put between two tokens of a header without a change to the
parts that are read or to the body. Where it would stand in a constraint or in the requirements
this needs that the clause is passed over with the comment in it, which a comment without
brackets and delimiters grants and others do not.

The declaration may stand behind any text that is read alike whatever follows. Other sites may
lie in that text, and they keep their places.
-/

set_option autoImplicit false

namespace StyleMacros

/-! ## Comments in a region -/

def constraintMarks : List Char :=
  ['(', '[', '<', ',', '>', '\x7b']

theorem constraint_pass {char : Char} (plain : char ∉ constraintMarks) {rest : Text}
    (noArrow : char = '-' → rest.head? ≠ some '>') :
    Region.constraint.afterInner? (char :: rest) = none ∧
      Region.constraint.plain (char :: rest) = some rest := by
  simp only [constraintMarks, List.mem_cons, List.not_mem_nil, or_false, not_or] at plain
  constructor
  · simp [Region.afterInner?, Region.openings, Region.angleOpenings, Region.roundOpenings,
      Region.squareOpenings, plain]
  · simp only [Region.plain]
    unfold Region.arrowOr
    split
    · rename_i same
      obtain ⟨rfl, rfl⟩ := List.cons.inj same
      exact absurd rfl (noArrow rfl)
    · simp [Region.otherThan, plain]

namespace Region.Runs

variable {text : Text}

/-- A constraint goes over what holds no bracket and no comma, unless an arrow may begin with its
last character. -/
theorem constraint_of_plain (plain : ∀ char ∈ text, char ∉ constraintMarks)
    (noArrow : text.getLast? ≠ some '-') : Region.constraint.Runs text := by
  induction text with
  | nil => exact nil
  | cons head tail inductionHypothesis =>
      intro rest
      have passed : Region.constraint.afterInner? (head :: (tail ++ rest)) = none ∧
          Region.constraint.plain (head :: (tail ++ rest)) = some (tail ++ rest) := by
        apply constraint_pass (plain head List.mem_cons_self)
        rintro rfl
        cases tail with
        | nil => exact absurd rfl noArrow
        | cons second others =>
            rintro ⟨⟩
            exact plain '>' (by simp) (by decide)
      rw [List.cons_append, Region.afterContent_of_plain passed.1 passed.2]
      cases tail with
      | nil => rfl
      | cons second others =>
          rw [List.getLast?_cons_cons] at noArrow
          exact inductionHypothesis
            (fun char member => plain char (List.mem_cons_of_mem head member)) noArrow rest

end Region.Runs

namespace HeaderToken

variable {left inserted right : Text}

theorem takes_requirements (first : Region.requirements.Runs left)
    (plain : ∀ char ∈ inserted, char ∉ requirementMarks) (last : Region.requirements.Runs right) :
    HeaderToken.where_.Takes left inserted right :=
  ⟨first.append last, first.append ((Region.Runs.requirements_of_plain plain).append last)⟩

theorem takes_constraint {start : Text} (first : Region.constraint.Runs (start ++ left))
    (plain : ∀ char ∈ inserted, char ∉ constraintMarks) (noArrow : inserted.getLast? ≠ some '-')
    (last : Region.constraint.Runs right) :
    (HeaderToken.constraint start).Takes left inserted right := by
  constructor
  · rw [← List.append_assoc]
    exact first.append last
  · rw [← List.append_assoc]
    exact first.append ((Region.Runs.constraint_of_plain plain noArrow).append last)

end HeaderToken

/-! ## Annotations -/

/-- Attributes, one of which names a macro, as they are read in front of any word. -/
def Annotates (annotating : Text) : Prop :=
  ∀ (offset : Nat) (head : Char) (rest : Text), isIdentifierContinue head = true →
    ∃ first behind others reached,
      readAttribute (offset + (annotating ++ head :: rest).size) (annotating ++ head :: rest) =
        some (first, behind) ∧
      readMany (readAttribute (offset + (annotating ++ head :: rest).size)) behind.length behind =
        (others, reached) ∧
      skipTrivia reached = head :: rest ∧
      (first :: others).any (fun used => used.macroName?.isSome) = true

theorem WrittenAttribute.annotates (written : WrittenAttribute) :
    Annotates (written.text ++ written.lead) := by
  intro offset head rest letter
  have apart := notMem_punctuation_of_isIdentifierContinue letter
  have noMark : head ≠ '@' := (ne_of_mem_of_not_mem (by decide) apart).symm
  have noSlash : head ≠ '/' := (ne_of_mem_of_not_mem (by decide) apart).symm
  have solid := isTokenBlank_eq_false_of_notMem apart
  have start : skipTrivia (written.lead ++ head :: rest) = head :: rest := by
    rw [skipTrivia_blanks_append written.leadBlank]
    exact skipTrivia_of_token solid noSlash rest
  obtain ⟨expression, read, -⟩ := written.readAttribute_text offset (written.lead ++ head :: rest)
  rw [List.append_assoc]
  refine ⟨_, _, [], written.lead ++ head :: rest, read, ?_, start, ?_⟩
  · cases (written.lead ++ head :: rest).length with
    | zero => rfl
    | succ fuel => simp only [readMany, start, readAttribute_of_noMark noMark]
  · simp [Attribute.macroName?, tree, MacroName.ofText?_text]

/-! ## Text in front of an attribute -/

/-- The text holds the sites `earlier`, whatever stands behind the mark of the next attribute. No
literal and no comment is open at its end, and no declaration that could take in more. -/
def Precedes (lead : Text) (earlier : List Site) : Prop :=
  ∀ rest, readSites (lead ++ '@' :: rest) =
    earlier ++ sitesFrom (lead ++ '@' :: rest).size ('@' :: rest)

theorem Inert.precedes {lead : Text} (inert : Inert lead) : Precedes lead [] := by
  intro rest
  rw [readSites_eq_sitesFrom, inert.sitesFrom_append (.inr (by simp)), List.nil_append]

theorem WrittenDeclaration.precedes (written : WrittenDeclaration) {gap : Text}
    (inert : Inert gap) : Precedes (annotationLine ++ (written.text ++ gap)) [written.site] := by
  intro rest
  have start : skipTrivia (annotationLine ++ (written.text ++ (gap ++ '@' :: rest))) =
      annotationLine ++ (written.text ++ (gap ++ '@' :: rest)) :=
    skipTrivia_of_token (by decide) (by decide) _
  rw [List.append_assoc, List.append_assoc, readSites_eq_sitesFrom,
    sitesFrom_of_readSite start (written.readSite_written (gap ++ '@' :: rest)),
    inert.sitesFrom_append (.inr (by simp)), List.singleton_append]

/-- The sites in front of an attribute add up, each further on by what stands in front of it. -/
theorem Precedes.append {first second : Text} {earlier later : List Site}
    (front : Precedes first earlier) (back : Precedes second later)
    (mark : ∃ others, second = '@' :: others) :
    Precedes (first ++ second) (earlier ++ later.map (Site.move first.size)) := by
  obtain ⟨others, begins⟩ := mark
  intro rest
  generalize text_eq : second ++ '@' :: rest = text
  have inside : Text.size ('@' :: rest) ≤ text.size :=
    Text.size_le_of_suffix (text_eq ▸ List.suffix_append second ('@' :: rest))
  have reached : readSites (first ++ text) = earlier ++ sitesFrom (first.size + text.size) text := by
    rw [← Text.size_append, ← text_eq, begins]
    exact front (others ++ '@' :: rest)
  have behind : sitesFrom text.size text = later ++ sitesFrom text.size ('@' :: rest) := by
    rw [← readSites_eq_sitesFrom, ← text_eq]
    exact back rest
  rw [List.append_assoc, text_eq, reached, sitesFrom_add _ _ (Nat.le_refl _), behind,
    List.map_append, ← sitesFrom_add _ _ inside, Text.size_append, List.append_assoc]

/-! ## Annotated headers -/

theorem Laid.suffix {tail text : Text} {tokens : List HeaderToken} (laid : Laid tail tokens text) :
    tail <:+ text := by
  induction laid with
  | nil => exact List.suffix_refl tail
  | cons _ _ _ _ inductionHypothesis =>
      exact (inductionHypothesis.trans (List.suffix_append _ _)).trans (List.suffix_append _ _)

theorem exists_mark_of_readSite {total : Nat} {text behind : Text} {site : Site}
    (read : readSite total text = some (site, behind)) : ∃ rest, text = '@' :: rest := by
  cases text with
  | nil => cases read
  | cons head rest =>
      by_cases mark : head = '@'
      · exact ⟨rest, by rw [mark]⟩
      · rw [readSite_of_noMark mark] at read
        cases read

namespace HeaderParts

variable {lead annotating text content rest : Text} {earlier : List Site} (parts : HeaderParts)

theorem exists_head_of_laid (laid : Laid ('\x7b' :: content) parts.tokens text) :
    ∃ head others, text = head :: others ∧ isIdentifierContinue head = true := by
  have first : ∃ letters more, parts.tokens = .word letters :: more := by
    rw [tokens]
    cases parts.modifiers with
    | nil => exact ⟨_, _, rfl⟩
    | cons modifier others => exact ⟨_, _, rfl⟩
  obtain ⟨letters, more, row⟩ := first
  rw [row] at laid
  obtain ⟨stretch, behind, rfl, word, -⟩ := laid.exists_cons
  cases letters with
  | nil => cases word
  | cons head others =>
      exact ⟨head, others ++ (stretch ++ behind), rfl,
        Text.isIdentifierContinue_of_mem word List.mem_cons_self⟩

theorem readSite_of_laid (annotates : Annotates annotating)
    (laid : Laid ('\x7b' :: content) parts.tokens text)
    (closes : Region.body.finish? content = some rest) (offset : Nat) :
    ∃ site declaration,
      readSite (offset + (annotating ++ text).size) (annotating ++ text) = some (site, rest) ∧
      site.target = .declaration declaration ∧ parts.Describes declaration ∧
      declaration.body = .between (offset + (annotating ++ text).size) content
        (Region.body.afterContent content) := by
  obtain ⟨head, others, rfl, letter⟩ := parts.exists_head_of_laid laid
  obtain ⟨first, behind, further, reached, firstRead, furtherRead, start, named⟩ :=
    annotates offset head others letter
  generalize total_eq : offset + (annotating ++ head :: others).size = total at *
  obtain ⟨declaration, read, describes, body⟩ := parts.readDeclaration laid closes total
  refine ⟨⟨first :: further, .declaration declaration,
    .between total (annotating ++ head :: others) rest⟩, declaration, ?_, rfl, describes, body⟩
  simp only [readSite, firstRead, furtherRead, named, if_true, start, readTarget, read]

theorem readSites_of_laid (precedes : Precedes lead earlier) (annotates : Annotates annotating)
    (laid : Laid ('\x7b' :: content) parts.tokens text)
    (closes : Region.body.finish? content = some rest) :
    ∃ site declaration,
      readSites (lead ++ (annotating ++ text)) =
        earlier ++ site :: sitesFrom (lead ++ (annotating ++ text)).size rest ∧
      site.target = .declaration declaration ∧ parts.Describes declaration ∧
      declaration.body = .between (lead ++ (annotating ++ text)).size content
        (Region.body.afterContent content) := by
  obtain ⟨site, declaration, read, target, describes, body⟩ :=
    parts.readSite_of_laid annotates laid closes lead.size
  rw [← Text.size_append] at read body
  obtain ⟨others, mark⟩ := exists_mark_of_readSite read
  have start : skipTrivia (annotating ++ text) = annotating ++ text := by
    rw [mark]
    exact skipTrivia_of_token (by decide) (by decide) others
  have sites : readSites (lead ++ (annotating ++ text)) =
      earlier ++ sitesFrom (lead ++ (annotating ++ text)).size (annotating ++ text) := by
    rw [mark]
    exact precedes others
  refine ⟨site, declaration, ?_, target, describes, body⟩
  rw [sites, sitesFrom_of_readSite start read]

/-- A comment with blanks around it that is put between two tokens of a header changes nothing but
places. The declaration keeps its modifiers, its keyword, its name, the names of its parameters,
its inherited types and the text of its body. The sites in front stay where they are; the body and
all further sites lie further on by the size of the comment. -/
theorem readSites_of_comment {front back : Text} (comment : SpacedComment)
    (precedes : Precedes lead earlier) (annotates : Annotates annotating)
    (point : InsertionPoint ('\x7b' :: content) comment.text parts.tokens front back)
    (closes : Region.body.finish? content = some rest) :
    ∃ site declaration site' commented others,
      readSites (lead ++ (annotating ++ (front ++ back))) = earlier ++ site :: others ∧
      readSites (lead ++ (annotating ++ (front ++ (comment.text ++ back)))) =
        earlier ++ site' :: others.map (Site.move comment.text.size) ∧
      site.target = .declaration declaration ∧ site'.target = .declaration commented ∧
      parts.Describes declaration ∧ parts.Describes commented ∧
      commented.body = declaration.body.move comment.text.size ∧
      commented.body.text (lead ++ (annotating ++ (front ++ (comment.text ++ back)))) =
        declaration.body.text (lead ++ (annotating ++ (front ++ back))) := by
  obtain ⟨head, others, spaced, blank⟩ := comment.exists_blank
  obtain ⟨plainLaid, commentedLaid⟩ := point.laid comment.gap (by simp [spaced, blank])
    (by simp [spaced])
  obtain ⟨site, declaration, plainSites, target, describes, body⟩ :=
    parts.readSites_of_laid precedes annotates plainLaid closes
  obtain ⟨site', commented, commentedSites, target', describes', body'⟩ :=
    parts.readSites_of_laid precedes annotates commentedLaid closes
  generalize source_eq : lead ++ (annotating ++ (front ++ back)) = source at *
  generalize moved_eq : lead ++ (annotating ++ (front ++ (comment.text ++ back))) = moved at *
  have size : moved.size = comment.text.size + source.size := by
    rw [← source_eq, ← moved_eq]
    simp only [Text.size_append]
    omega
  have inSource : content <:+ source := by
    rw [← source_eq]
    exact (((List.suffix_cons _ content).trans plainLaid.suffix).trans
      (List.suffix_append _ _)).trans (List.suffix_append _ _)
  have inMoved : content <:+ moved := by
    rw [← moved_eq]
    exact (((List.suffix_cons _ content).trans commentedLaid.suffix).trans
      (List.suffix_append _ _)).trans (List.suffix_append _ _)
  have bodyInside : Region.body.afterContent content <:+ content :=
    Region.afterContent_suffix .body content
  have behind : rest <:+ content := Region.finish?_suffix closes
  refine ⟨site, declaration, site', commented, _, plainSites, ?_, target, target', describes,
    describes', ?_, ?_⟩
  · rw [commentedSites, size, sitesFrom_add _ _ (Text.size_le_of_suffix (behind.trans inSource))]
  · rw [body', body, size, Span.between_add (Text.size_le_of_suffix inSource) bodyInside]
  · obtain ⟨inner, split⟩ := bodyInside
    rw [← split] at inSource inMoved
    calc commented.body.text moved = inner := by
          rw [body']
          nth_rewrite 1 [← split]
          exact Span.text_between inMoved
      _ = declaration.body.text source := by
          rw [body]
          nth_rewrite 1 [← split]
          exact (Span.text_between inSource).symm

end HeaderParts

/-! ## A comment behind `where` -/

theorem isTokenBlank_of_mem_blank : ∀ char ∈ [' '], isTokenBlank char = true := by
  decide

def delimiterComment : SpacedComment where
  front := " "
  comment := "// , > \x7d\n"
  back := " "
  whole := @WholeComment.line " , > \x7d" '\n' (by decide) (by decide)
  frontBlank := isTokenBlank_of_mem_blank
  backBlank := isTokenBlank_of_mem_blank
  spaced := List.cons_ne_nil ' ' []

def cardParts : HeaderParts where
  modifiers := [.access .public_]
  keyword := .struct
  name := ⟨"Card", [], by decide +kernel⟩
  parameters := [⟨"T", some "View"⟩]
  finalComma := false
  inheritance := ["Base"]
  requires := true

def cardFront : Text :=
  "public struct Card<T: View>: Base where T: Equatable"

def cardContent : Text :=
  " let x = 1 \x7d\n"

theorem cardFront_insertionPoint : InsertionPoint ('\x7b' :: cardContent) delimiterComment.text
    cardParts.tokens cardFront (' ' :: '\x7b' :: cardContent) := by
  have blank : Gap [' '] := .blanks isTokenBlank_of_mem_blank
  have runs (text : Text) (plain : ∀ char ∈ text, char ∉ requirementMarks) :
      Region.requirements.Runs text := .requirements_of_plain plain
  have stops {char : Char} {rest : Text} {token : HeaderToken} (allowed : token.Stops char) :
      ∀ first ∈ (char :: rest).head?, token.Stops first := by
    rintro first ⟨⟩
    exact allowed
  have noLetter : isIdentifierContinue ' ' = false ∧ isIdentifierContinue ':' = false := by
    decide +kernel
  have marks : '<' ∈ headerMarks ∧ '>' ∈ headerMarks ∧ ':' ∈ headerMarks := by decide
  have words : Text.isIdentifier "public" = true ∧ Text.isIdentifier "struct" = true ∧
      Text.isIdentifier "T" = true := by decide +kernel
  -- the row is built from its last token on
  have requirements : InsertionPoint ('\x7b' :: cardContent) delimiterComment.text [.where_]
      ("where" ++ " T: Equatable") ([' '] ++ '\x7b' :: cardContent) :=
    .here trivial
      (HeaderToken.takes_requirements (runs _ (by decide)) (by decide) (runs _ (by decide)))
      (stops noLetter.1) .nil
  have inherited := @InsertionPoint.later _ _ (.inherited "Base") _ [' '] _ _
    ⟨by decide, starts_of_isIdentifier (by decide +kernel), fun tail ends =>
      readTypeReference_text ⟨"Base", [], by decide +kernel⟩ (by decide) ends⟩
    blank (stops (by decide : ' ' ∈ typeStops)) requirements
  have colon := @InsertionPoint.later _ _ (.mark ':') _ [' '] _ _ marks.2.2 blank
    (fun _ _ => trivial) inherited
  have closed := @InsertionPoint.later _ _ (.mark '>') _ [] _ _ marks.2.1 .nil
    (fun _ _ => trivial) colon
  have bound := @InsertionPoint.later _ _ (.constraint "View") _ [] _ _
    ⟨by decide, starts_of_isIdentifier (by decide +kernel)⟩
    (Region.Runs.constraint_of_plain (by decide) (by decide)) (fun _ _ => trivial) closed
  have bounded := @InsertionPoint.later _ _ (.mark ':') _ [' '] _ _ marks.2.2 blank
    (fun _ _ => trivial) bound
  have parameter := @InsertionPoint.later _ _ (.word "T") _ [] _ _ words.2.2 .nil
    (stops noLetter.2) bounded
  have opened := @InsertionPoint.later _ _ (.mark '<') _ [] _ _ marks.1 .nil
    (fun _ _ => trivial) parameter
  have named := @InsertionPoint.later _ _ (.path cardParts.name) _ [] _ _ trivial .nil
    (stops (by decide : '<' ∈ punctuation ∧ '<' ≠ '.')) opened
  have keyword := @InsertionPoint.later _ _ (.word "struct") _ [' '] _ _ words.2.1 blank
    (stops noLetter.1) named
  exact @InsertionPoint.later _ _ (.word "public") _ [' '] _ _ words.1 blank (stops noLetter.1)
    keyword

def cardLead : Text :=
  hiddenAttributes ++
    (WrittenDeclaration.annotationLine ++ (WrittenDeclaration.genericCard.text ++ hiddenAttributes))

def cardEarlier : List Site :=
  [WrittenDeclaration.genericCard.site.move hiddenAttributes.size]

theorem cardLead_precedes : Precedes cardLead cardEarlier :=
  hiddenAttributes_inert.precedes.append
    (WrittenDeclaration.genericCard.precedes hiddenAttributes_inert) ⟨_, rfl⟩

/-- The card behind an attribute with arguments, with a text put in behind its requirements. -/
def cardSource (inserted : Text) : Text :=
  cardLead ++ ((WrittenAttribute.listOfMarks.text ++ WrittenAttribute.listOfMarks.lead) ++
    (cardFront ++ (inserted ++ ' ' :: '\x7b' :: cardContent)))

theorem readSites_of_comment_behind_where :
    Precedes cardLead cardEarlier ∧
      Annotates (WrittenAttribute.listOfMarks.text ++ WrittenAttribute.listOfMarks.lead) ∧
      InsertionPoint ('\x7b' :: cardContent) delimiterComment.text cardParts.tokens cardFront
        (' ' :: '\x7b' :: cardContent) ∧
      Region.body.finish? cardContent = some ['\n'] ∧
      ∃ site declaration site' commented others,
        readSites (cardSource []) = cardEarlier ++ site :: others ∧
        readSites (cardSource delimiterComment.text) =
          cardEarlier ++ site' :: others.map (Site.move delimiterComment.text.size) ∧
        site.target = .declaration declaration ∧ site'.target = .declaration commented ∧
        cardParts.Describes declaration ∧ cardParts.Describes commented ∧
        commented.body = declaration.body.move delimiterComment.text.size ∧
        commented.body.text (cardSource delimiterComment.text) =
          declaration.body.text (cardSource []) := by
  have closes : Region.body.finish? cardContent = some ['\n'] := by decide +kernel
  exact ⟨cardLead_precedes, WrittenAttribute.listOfMarks.annotates, cardFront_insertionPoint,
    closes, cardParts.readSites_of_comment delimiterComment cardLead_precedes
      WrittenAttribute.listOfMarks.annotates cardFront_insertionPoint closes⟩

/-! ## A comment with braces -/

def bodyTexts (source : Text) : List Text :=
  (readSites source).filterMap fun site =>
    match site.target with
    | .declaration declaration => some (declaration.body.text source)
    | _ => none

def bracedComment : SpacedComment where
  front := " "
  comment := "/* \x7b\x7d */"
  back := []
  whole := by
    have closed : CommentContent " \x7b\x7d " := by
      repeat refine .char (by decide) (by decide) ?_
      exact .nil
    exact .block closed
  frontBlank := isTokenBlank_of_mem_blank
  backBlank := by simp
  spaced := List.cons_ne_nil ' ' []

/-- Behind `where` a comment is not passed over: its first brace is taken for that of the body. -/
theorem body_taken_from_comment :
    bodyTexts ("@UIComponent\nstruct Card<T> where T: View" ++
        " \x7b\n    let x = 1\n\x7d\n") = ["\n    let x = 1\n".toList] ∧
      bodyTexts ("@UIComponent\nstruct Card<T> where T: View" ++ (bracedComment.text ++
        " \x7b\n    let x = 1\n\x7d\n")) = [[]] := by
  decide +kernel

end StyleMacros
