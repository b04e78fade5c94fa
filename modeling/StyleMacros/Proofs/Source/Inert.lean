import StyleMacros.Proofs.Source.Lexemes
import StyleMacros.Proofs.Source.Movement

/-!
# Text that holds no attribute

Inert text is made of whole comments and strings and of characters that begin none of these and
no attribute. It holds no site, whatever its comments and strings say, and what stands behind it
is read as if the source began there.
-/

set_option autoImplicit false

namespace StyleMacros

inductive Inert : Text → Prop
  | nil : Inert []
  | char {head : Char} {rest : Text} (plain : head ∉ ['@', '"', '/']) (later : Inert rest) :
      Inert (head :: rest)
  | lexeme {token rest : Text} (whole : Lexeme rest token) (later : Inert rest) :
      Inert (token ++ rest)

variable {total : Nat}

/-! ## What stands at the head -/

theorem sitesFrom_congr {first second : Text} (same : skipTrivia first = skipTrivia second) :
    sitesFrom total first = sitesFrom total second := by
  rw [sitesFrom_eq, sitesFrom_eq total second, same]

theorem readSite_of_noMark {head : Char} (noMark : head ≠ '@') (rest : Text) :
    readSite total (head :: rest) = none := by
  rw [readSite, readAttribute_of_noMark noMark]

theorem afterSkipped_of_noQuote {head : Char} (noQuote : head ≠ '"') (rest : Text) :
    afterSkipped (head :: rest) = rest := by
  have none : Region.quoteOpenings (head :: rest) = [] := by
    simp [Region.quoteOpenings, noQuote]
  rw [afterSkipped, Region.afterQuoted?, none]
  rfl

theorem sitesFrom_char {head : Char} (plain : head ∉ ['@', '"', '/']) (rest : Text) :
    sitesFrom total (head :: rest) = sitesFrom total rest := by
  simp only [List.mem_cons, List.not_mem_nil, or_false, not_or] at plain
  obtain ⟨noMark, noQuote, noSlash⟩ := plain
  by_cases blank : isTokenBlank head = true
  · exact sitesFrom_congr (skipTrivia_of_blank blank rest)
  · rw [sitesFrom_eq, skipTrivia_of_token (Bool.eq_false_iff.mpr blank) noSlash]
    simp only [readSite_of_noMark noMark, afterSkipped_of_noQuote noQuote]

theorem skipTrivia_comment {token behind : Text} (whole : Lexeme behind token)
    (slash : token.head? = some '/') : skipTrivia (token ++ behind) = skipTrivia behind := by
  have commented := Region.afterComment?_lexeme whole slash
  obtain ⟨head, words, rfl, marked⟩ := whole.exists_head
  have solid : ¬ isTokenBlank head = true := by
    rcases marked with rfl | rfl <;> decide
  rw [List.cons_append] at commented ⊢
  rw [skipTrivia_cons, if_neg solid]
  rcases commented with ends | ends
  · rw [ends]
  · rw [ends]
    exact skipTrivia_of_blank (by decide) behind

theorem skipTrivia_lineComment {words rest : Text}
    (inLine : ∀ char ∈ words, isLineBreak char = false)
    (ends : ∀ char ∈ rest.head?, isLineBreak char = true) :
    skipTrivia ('/' :: '/' :: (words ++ rest)) = skipTrivia rest := by
  have line : Region.afterLine (words ++ rest) = rest := by
    apply Text.afterLine_append inLine
    cases rest with
    | nil => exact .inl rfl
    | cons head others => exact .inr ⟨head, others, rfl, ends head rfl⟩
  rw [skipTrivia_cons, if_neg (by decide)]
  simp only [afterComment?, line]

theorem sitesFrom_lexeme {token behind : Text} (whole : Lexeme behind token) :
    sitesFrom total (token ++ behind) = sitesFrom total behind := by
  have quoted := Region.afterQuoted?_lexeme whole
  obtain ⟨head, words, rfl, rfl | rfl⟩ := whole.exists_head
  · rw [List.cons_append] at quoted ⊢
    rw [sitesFrom_eq, skipTrivia_of_token (by decide) (by decide)]
    simp only [readSite_of_noMark (by decide : '"' ≠ '@'), afterSkipped, quoted rfl,
      Option.getD_some]
  · exact sitesFrom_congr (skipTrivia_comment whole rfl)

/-! ## Inert text as a whole -/

/-- Inert text is passed over, unless a quote behind it turns its last empty literal into
something else. -/
theorem Inert.sitesFrom_append {front : Text} (inert : Inert front) {text : Text}
    (apart : front.getLast? = some '\n' ∨ text.head? ≠ some '"') :
    sitesFrom total (front ++ text) = sitesFrom total text := by
  induction inert with
  | nil => rfl
  | @char head rest plain later inductionHypothesis =>
      rw [List.cons_append, sitesFrom_char plain]
      cases rest with
      | nil => rfl
      | cons second others =>
          rw [List.getLast?_cons_cons] at apart
          exact inductionHypothesis apart
  | @lexeme token rest whole later inductionHypothesis =>
      have behind : Lexeme (rest ++ text) token := by
        apply whole.append
        rintro rfl rfl
        exact apart.resolve_left (by decide)
      rw [List.append_assoc, sitesFrom_lexeme behind]
      cases rest with
      | nil => rfl
      | cons second others =>
          rw [List.getLast?_append_of_ne_nil token (List.cons_ne_nil second others)] at apart
          exact inductionHypothesis apart

/-- Behind inert text that ends its line a source is read as if it began there, and all its
spans lie further on by the size of the inert text. The inert text itself has no site. -/
theorem readSites_behind_inert {front : Text} (inert : Inert front)
    (ends : front.getLast? = some '\n') :
    (∀ text, readSites (front ++ text) = (readSites text).map (Site.move front.size)) ∧
      readSites front = [] := by
  have moved (text : Text) :
      readSites (front ++ text) = (readSites text).map (Site.move front.size) := by
    calc readSites (front ++ text)
        = sitesFrom (front.size + text.size) (front ++ text) := by
          rw [readSites_eq_sitesFrom, Text.size_append]
      _ = sitesFrom (front.size + text.size) text := inert.sitesFrom_append (.inl ends)
      _ = (readSites text).map (Site.move front.size) :=
          sitesFrom_add front.size text.size (Nat.le_refl _)
  refine ⟨moved, ?_⟩
  have alone := moved []
  rwa [List.append_nil] at alone

def hiddenAttributes : Text :=
  "/* @Style /* */ */ \"@UIComponent\"\n\n"

theorem hiddenAttributes_inert : Inert hiddenAttributes := by
  have comment : CommentContent " @Style /* */ " := by
    repeat refine .char (by decide) (by decide) ?_
    exact .nested (.char (by decide) (by decide) .nil) (.char (by decide) (by decide) .nil)
  have string : LiteralContent "@UIComponent" := by
    repeat refine .char (by decide) ?_
    exact .nil
  exact .lexeme (.blockComment comment) <| .char (by decide) <| .lexeme (.literal string) <|
    .char (by decide) <| .char (by decide) .nil

theorem readSites_behind_hidden_attributes :
    Inert hiddenAttributes ∧ hiddenAttributes.getLast? = some '\n' ∧
      (∀ text, readSites (hiddenAttributes ++ text) =
        (readSites text).map (Site.move hiddenAttributes.size)) ∧
      readSites hiddenAttributes = [] :=
  ⟨hiddenAttributes_inert, by decide,
    readSites_behind_inert hiddenAttributes_inert (by decide)⟩

end StyleMacros
