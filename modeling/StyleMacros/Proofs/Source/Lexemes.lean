import StyleMacros.Proofs.Source.Progress
import StyleMacros.Proofs.Source.Trivia

/-!
# Whole comments and strings

A lexeme is a comment or a string literal from its opening to its closing mark, written down
without reference to the scanner. Whatever stands behind it, the scanner passes over exactly the
lexeme, and so it passes over text in which all brackets are balanced.
-/

set_option autoImplicit false

namespace StyleMacros

/-! ## What stands between the marks -/

/-- The text inside a block comment, where every opening mark has its closing one. A slash at the
end would open another comment together with the closing mark. -/
inductive CommentContent : Text → Prop
  | nil : CommentContent []
  | char {head : Char} {rest : Text} (opensNone : head = '/' → rest ≠ [] ∧ rest.head? ≠ some '*')
      (closesNone : head = '*' → rest.head? ≠ some '/') (later : CommentContent rest) :
      CommentContent (head :: rest)
  | nested {inner rest : Text} (inside : CommentContent inner) (later : CommentContent rest) :
      CommentContent ('/' :: '*' :: (inner ++ '*' :: '/' :: rest))

inductive LiteralContent : Text → Prop
  | nil : LiteralContent []
  | char {head : Char} {rest : Text} (plain : head ∉ ['"', '\\', '\n', '\r'])
      (later : LiteralContent rest) : LiteralContent (head :: rest)
  | escape {escaped : Char} {rest : Text} (plain : escaped ≠ '(') (later : LiteralContent rest) :
      LiteralContent ('\\' :: escaped :: rest)

inductive MultilineContent : Text → Prop
  | nil : MultilineContent []
  | char {head : Char} {rest : Text} (plain : head ∉ ['"', '\\'])
      (later : MultilineContent rest) : MultilineContent (head :: rest)
  | escape {escaped : Char} {rest : Text} (later : MultilineContent rest) :
      MultilineContent ('\\' :: escaped :: rest)

/-- A whole comment or string literal in front of the text `behind`. The empty literal must not
be followed by a quote, with which it would open a literal in triple quotes. -/
inductive Lexeme (behind : Text) : Text → Prop
  | lineComment {words : Text} (inLine : ∀ char ∈ words, isLineBreak char = false) :
      Lexeme behind ('/' :: '/' :: (words ++ ['\n']))
  | blockComment {content : Text} (closed : CommentContent content) :
      Lexeme behind ('/' :: '*' :: (content ++ ['*', '/']))
  | emptyLiteral (apart : behind.head? ≠ some '"') : Lexeme behind ['"', '"']
  | literal {first : Char} {content : Text} (plain : LiteralContent (first :: content)) :
      Lexeme behind ('"' :: (first :: content ++ ['"']))
  | multiline {content : Text} (plain : MultilineContent content) :
      Lexeme behind ('"' :: '"' :: '"' :: (content ++ ['"', '"', '"']))

namespace Lexeme

theorem behind_of {behind other token : Text} (whole : Lexeme behind token)
    (apart : token = ['"', '"'] → behind.head? ≠ some '"' → other.head? ≠ some '"') :
    Lexeme other token := by
  cases whole with
  | lineComment inLine => exact .lineComment inLine
  | blockComment closed => exact .blockComment closed
  | emptyLiteral quoteless => exact .emptyLiteral (apart rfl quoteless)
  | literal plain => exact .literal plain
  | multiline plain => exact .multiline plain

theorem append {behind token more : Text} (whole : Lexeme behind token)
    (apart : behind = [] → token = ['"', '"'] → more.head? ≠ some '"') :
    Lexeme (behind ++ more) token := by
  apply whole.behind_of
  intro empty quoteless
  cases behind with
  | nil => exact apart rfl empty
  | cons head rest => exact quoteless

theorem exists_head {behind token : Text} (whole : Lexeme behind token) :
    ∃ head words, token = head :: words ∧ (head = '"' ∨ head = '/') := by
  cases whole <;> exact ⟨_, _, rfl, by simp⟩

end Lexeme

namespace Region

/-! ## Heads of a text -/

theorem otherThan_of_notMem {stops : List Char} {head : Char} (plain : head ∉ stops)
    (rest : Text) : otherThan stops (head :: rest) = some rest := by
  simp [otherThan, plain]

theorem escapeOr_of_notMem {stops : List Char} {head : Char} (noEscape : head ≠ '\\')
    (plain : head ∉ stops) (rest : Text) : escapeOr stops (head :: rest) = some rest := by
  unfold escapeOr
  split
  · rename_i same
    exact absurd (List.cons.inj same).1 noEscape
  · exact otherThan_of_notMem plain rest

theorem quoteOpenings_of_single {rest : Text} (single : ¬ ['"', '"'] <+: rest) :
    quoteOpenings ('"' :: rest) = [(literal, rest)] := by
  unfold quoteOpenings
  split
  · rename_i behind same
    rw [(List.cons.inj same).2] at single
    exact absurd ⟨behind, rfl⟩ single
  · rename_i behind _ same
    rw [(List.cons.inj same).2]
  · rename_i none
    exact absurd rfl (none rest)

/-! ## Content that ends at its mark -/

theorem finish?_of_afterContent {region : Region} {text mark rest : Text}
    (closing : region.closing = some mark) (ends : region.afterContent text = mark ++ rest) :
    region.finish? text = some rest := by
  rw [finish?, ends, afterClosing, closing]
  exact List.isPrefixOf?_eq_some_iff_append_eq.mpr rfl

theorem finish?_comment {content : Text} (closed : CommentContent content) (rest : Text) :
    comment.finish? (content ++ '*' :: '/' :: rest) = some rest := by
  apply finish?_of_afterContent rfl
  induction closed generalizing rest with
  | nil => exact afterContent_of_none rfl rfl
  | @char head tail opensNone closesNone later inductionHypothesis =>
      refine (afterContent_of_plain ?_ ?_).trans (inductionHypothesis rest)
      · have none : commentOpenings (head :: (tail ++ '*' :: '/' :: rest)) = [] := by
          unfold commentOpenings
          split
          · rename_i behind same
            cases tail with
            | nil =>
                cases same
                exact absurd rfl (opensNone rfl).1
            | cons second others =>
                cases same
                exact absurd rfl (opensNone rfl).2
          · rfl
        show (commentOpenings (head :: (tail ++ '*' :: '/' :: rest))).findSome? _ = _
        rw [none]
        rfl
      · show plain comment (head :: (tail ++ '*' :: '/' :: rest)) = _
        simp only [plain]
        split
        · rename_i behind same
          cases tail with
          | nil => cases same
          | cons second others =>
              cases same
              exact absurd rfl (closesNone rfl)
        · rfl
  | @nested inner tail inside later innerHypothesis laterHypothesis =>
      refine (afterContent_of_inner ?_).trans (laterHypothesis rest)
      have closes : comment.finish? (inner ++ '*' :: '/' :: (tail ++ '*' :: '/' :: rest)) =
          some (tail ++ '*' :: '/' :: rest) :=
        finish?_of_afterContent rfl (innerHypothesis _)
      have split : '/' :: '*' :: (inner ++ '*' :: '/' :: tail) ++ '*' :: '/' :: rest =
          '/' :: '*' :: (inner ++ '*' :: '/' :: (tail ++ '*' :: '/' :: rest)) := by simp
      rw [split]
      show ([(comment, _)] : List (Region × Text)).findSome? _ = _
      simp only [List.findSome?_cons, closes]

theorem afterContent_literal_char {head : Char} (plain : head ∉ ['"', '\\', '\n', '\r'])
    (rest : Text) : literal.afterContent (head :: rest) = literal.afterContent rest := by
  have noEscape : head ≠ '\\' := by
    rintro rfl
    simp at plain
  apply afterContent_of_plain
  · show (interpolationOpenings (head :: rest)).findSome? _ = none
    simp [interpolationOpenings, noEscape]
  · exact escapeOr_of_notMem noEscape plain rest

theorem afterContent_literal_escape {escaped : Char} (plain : escaped ≠ '(') (rest : Text) :
    literal.afterContent ('\\' :: escaped :: rest) = literal.afterContent rest := by
  refine afterContent_of_plain ?_ rfl
  show (interpolationOpenings ('\\' :: escaped :: rest)).findSome? _ = none
  simp [interpolationOpenings, plain]

theorem afterContent_literal {content : Text} (plain : LiteralContent content) (rest : Text) :
    literal.afterContent (content ++ '"' :: rest) = '"' :: rest := by
  induction plain with
  | nil => exact afterContent_of_none rfl rfl
  | char plain later inductionHypothesis =>
      exact (afterContent_literal_char plain _).trans inductionHypothesis
  | escape plain later inductionHypothesis =>
      exact (afterContent_literal_escape plain _).trans inductionHypothesis

theorem afterContent_multiline {content : Text} (plain : MultilineContent content) (rest : Text) :
    multiline.afterContent (content ++ '"' :: '"' :: '"' :: rest) = '"' :: '"' :: '"' :: rest := by
  induction plain with
  | nil => exact afterContent_of_none rfl rfl
  | @char head tail solid later inductionHypothesis =>
      refine (afterContent_of_plain rfl ?_).trans inductionHypothesis
      have noQuote : head ≠ '"' := by
        rintro rfl
        simp at solid
      have noEscape : head ≠ '\\' := by
        rintro rfl
        simp at solid
      show Region.plain multiline (head :: (tail ++ '"' :: '"' :: '"' :: rest)) = _
      simp only [Region.plain]
      split
      · rename_i same
        exact absurd (List.cons.inj same).1 noQuote
      · exact escapeOr_of_notMem noEscape List.not_mem_nil _
  | @escape escaped tail later inductionHypothesis =>
      exact (afterContent_of_plain rfl rfl).trans inductionHypothesis

theorem afterQuoted?_literal {first : Char} {content behind : Text} (noQuote : first ≠ '"')
    (ends : literal.afterContent (first :: content ++ '"' :: behind) = '"' :: behind) :
    afterQuoted? ('"' :: (first :: content ++ ['"']) ++ behind) = some behind := by
  have split : '"' :: (first :: content ++ ['"']) ++ behind =
      '"' :: (first :: content ++ '"' :: behind) := by simp
  have closes : literal.finish? (first :: content ++ '"' :: behind) = some behind :=
    finish?_of_afterContent rfl ends
  have single : ¬ ['"', '"'] <+: first :: content ++ '"' :: behind := by
    rintro ⟨rest, same⟩
    exact noQuote (List.cons.inj same).1.symm
  rw [split, afterQuoted?, quoteOpenings_of_single single]
  simp only [List.findSome?_cons, closes]

theorem afterQuoted?_lexeme {token behind : Text} (whole : Lexeme behind token)
    (quoted : token.head? = some '"') : afterQuoted? (token ++ behind) = some behind := by
  cases whole with
  | lineComment inLine => cases quoted
  | blockComment closed => cases quoted
  | emptyLiteral apart =>
      have closes : literal.finish? ('"' :: behind) = some behind :=
        finish?_of_afterContent rfl (afterContent_literal .nil behind)
      have single : ¬ ['"', '"'] <+: '"' :: behind := by
        rintro ⟨rest, same⟩
        rw [← (List.cons.inj same).2] at apart
        exact apart rfl
      show (quoteOpenings ('"' :: '"' :: behind)).findSome? _ = _
      rw [quoteOpenings_of_single single]
      simp only [List.findSome?_cons, closes]
  | @literal first content plain =>
      apply afterQuoted?_literal
      · rintro rfl
        cases plain with
        | char solid later => simp at solid
      · exact afterContent_literal plain behind
  | @multiline content plain =>
      have split : content ++ ['"', '"', '"'] ++ behind =
          content ++ '"' :: '"' :: '"' :: behind := by simp
      have closes : multiline.finish? (content ++ '"' :: '"' :: '"' :: behind) = some behind :=
        finish?_of_afterContent rfl (afterContent_multiline plain behind)
      show (quoteOpenings ('"' :: '"' :: '"' :: (content ++ ['"', '"', '"'] ++ behind))).findSome? _ =
        _
      rw [split]
      simp only [quoteOpenings, List.findSome?_cons, closes]

/-- A comment that is a lexeme is passed over, up to the line break that ends a line comment. -/
theorem afterComment?_lexeme {token behind : Text} (whole : Lexeme behind token)
    (slash : token.head? = some '/') :
    afterComment? (token ++ behind) = some behind ∨
      afterComment? (token ++ behind) = some ('\n' :: behind) := by
  cases whole with
  | @lineComment words inLine =>
      right
      have line : afterLine (words ++ '\n' :: behind) = '\n' :: behind :=
        Text.afterLine_append inLine (.inr ⟨'\n', behind, rfl, rfl⟩)
      show some (afterLine (words ++ ['\n'] ++ behind)) = _
      rw [List.append_assoc]
      exact congrArg some line
  | @blockComment content closed =>
      left
      have split : content ++ ['*', '/'] ++ behind = content ++ '*' :: '/' :: behind := by simp
      show comment.finish? (content ++ ['*', '/'] ++ behind) = _
      rw [split]
      exact finish?_comment closed behind
  | emptyLiteral apart => cases slash
  | literal plain => cases slash
  | multiline plain => cases slash

end Region

end StyleMacros
