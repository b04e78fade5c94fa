import StyleMacros.Proofs.Source.Lexemes

/-!
# Balanced text

In balanced text every parenthesis, bracket and brace has its partner, comments and strings
apart. A region that nests passes over balanced text as a whole, so what stands in braces is read
up to the brace that belongs to the first one.
-/

set_option autoImplicit false

namespace StyleMacros

/-- The characters that begin a comment, a string or a group, and those that end a group. -/
def structuralChars : List Char :=
  ['"', '/', '(', ')', '[', ']', '\x7b', '\x7d']

inductive Brackets : Region → Char → Char → Prop
  | round : Brackets .round '(' ')'
  | square : Brackets .square '[' ']'
  | curly : Brackets .curly '\x7b' '\x7d'

/-- Text in which brackets of the three kinds are balanced, and comments and strings are whole. -/
inductive Balanced : Text → Prop
  | nil : Balanced []
  | char {head : Char} {rest : Text} (plain : head ∉ structuralChars) (later : Balanced rest) :
      Balanced (head :: rest)
  | lexeme {token rest : Text} (whole : Lexeme rest token) (later : Balanced rest) :
      Balanced (token ++ rest)
  | group {between : Region} {opening closing : Char} {inner rest : Text}
      (pair : Brackets between opening closing) (inside : Balanced inner)
      (later : Balanced rest) : Balanced (opening :: (inner ++ closing :: rest))

namespace Region

def Nests : Region → Prop
  | round | square | curly | body => True
  | _ => False

variable {region : Region} {rest behind : Text}

/-! ## What stands at the head -/

theorem afterInner?_of_notMem (nests : region.Nests) {head : Char}
    (plain : head ∉ structuralChars) (rest : Text) : region.afterInner? (head :: rest) = none := by
  simp only [structuralChars, List.mem_cons, List.not_mem_nil, or_false, not_or] at plain
  obtain ⟨quote, slash, round, _, square, _, curly, _⟩ := plain
  have openings : region.openings (head :: rest) = [] := by
    cases region <;> first
      | exact nests.elim
      | simp [Region.openings, quoteOpenings, commentOpenings, roundOpenings, squareOpenings,
          curlyOpenings, quote, slash, round, square, curly]
  rw [afterInner?, openings]
  rfl

theorem plain_of_notMem (nests : region.Nests) {head : Char} (plain : head ∉ structuralChars)
    (rest : Text) : region.plain (head :: rest) = some rest := by
  simp only [structuralChars, List.mem_cons, List.not_mem_nil, or_false, not_or] at plain
  obtain ⟨_, slash, _, round, _, square, opening, closing⟩ := plain
  have other (stops : List Char) (free : head ∉ stops) :
      lineCommentOr stops (head :: rest) = some rest := by
    unfold lineCommentOr
    split
    · rename_i same
      exact absurd (List.cons.inj same).1 slash
    · exact otherThan_of_notMem free rest
  cases region <;> first
    | exact nests.elim
    | exact other _ (by simp [round, square, opening, closing])

/-- A character without a meaning of its own is passed over. -/
theorem afterContent_char (nests : region.Nests) {head : Char} (plain : head ∉ structuralChars)
    (rest : Text) : region.afterContent (head :: rest) = region.afterContent rest :=
  afterContent_of_plain (afterInner?_of_notMem nests plain rest) (plain_of_notMem nests plain rest)

theorem afterInner?_of_quoted (nests : region.Nests) {text : Text}
    (quoted : afterQuoted? text = some rest) : region.afterInner? text = some rest := by
  unfold afterQuoted? at quoted
  cases region <;> first
    | exact nests.elim
    | simp only [afterInner?, openings, List.findSome?_append, quoted, Option.some_or]

theorem afterInner?_of_comment (nests : region.Nests) {content : Text}
    (closes : comment.finish? content = some rest) :
    region.afterInner? ('/' :: '*' :: content) = some rest := by
  cases region <;> first
    | exact nests.elim
    | simp [afterInner?, openings, quoteOpenings, commentOpenings, closes]

theorem afterInner?_of_lineComment (nests : region.Nests) (content : Text) :
    region.afterInner? ('/' :: '/' :: content) = none := by
  cases region <;> first
    | exact nests.elim
    | rfl

theorem plain_of_lineComment (nests : region.Nests) (content : Text) :
    region.plain ('/' :: '/' :: content) = some (afterLine content) := by
  cases region <;> first
    | exact nests.elim
    | rfl

theorem afterContent_lexeme (nests : region.Nests) {token : Text}
    (whole : Lexeme behind token) :
    region.afterContent (token ++ behind) = region.afterContent behind := by
  have quoted := fun head => afterInner?_of_quoted nests (afterQuoted?_lexeme whole head)
  cases whole with
  | @lineComment words inLine =>
      have line : afterLine (words ++ '\n' :: behind) = '\n' :: behind :=
        Text.afterLine_append inLine (.inr ⟨'\n', behind, rfl, rfl⟩)
      have split : '/' :: '/' :: (words ++ ['\n']) ++ behind =
          '/' :: '/' :: (words ++ '\n' :: behind) := by simp
      rw [split, afterContent_of_plain (afterInner?_of_lineComment nests _)
        (plain_of_lineComment nests _), line]
      exact afterContent_char nests (by decide) behind
  | @blockComment content closed =>
      have split : '/' :: '*' :: (content ++ ['*', '/']) ++ behind =
          '/' :: '*' :: (content ++ '*' :: '/' :: behind) := by simp
      rw [split]
      exact afterContent_of_inner (afterInner?_of_comment nests (finish?_comment closed behind))
  | emptyLiteral apart => exact afterContent_of_inner (quoted rfl)
  | literal plain => exact afterContent_of_inner (quoted rfl)
  | multiline plain => exact afterContent_of_inner (quoted rfl)

/-! ## Groups -/

variable {between : Region} {opening closing : Char}

theorem afterContent_closing (pair : Brackets between opening closing) (rest : Text) :
    between.afterContent (closing :: rest) = closing :: rest := by
  cases pair <;> exact afterContent_of_none rfl rfl

/-- A group opens and closes an inner region, or else, in a body, both its brackets are plain
characters. -/
theorem afterContent_group (nests : region.Nests) (pair : Brackets between opening closing)
    {inner rest : Text} (closes : between.finish? (inner ++ closing :: rest) = some rest)
    (passes : region.afterContent (inner ++ closing :: rest) =
      region.afterContent (closing :: rest)) :
    region.afterContent (opening :: (inner ++ closing :: rest)) = region.afterContent rest := by
  have flat (opens : body.afterInner? (opening :: (inner ++ closing :: rest)) = none)
      (first : body.plain (opening :: (inner ++ closing :: rest)) =
        some (inner ++ closing :: rest))
      (ends : body.afterInner? (closing :: rest) = none)
      (last : body.plain (closing :: rest) = some rest) (same : region = body) :
      region.afterContent (opening :: (inner ++ closing :: rest)) = region.afterContent rest := by
    subst same
    calc body.afterContent (opening :: (inner ++ closing :: rest))
        = body.afterContent (inner ++ closing :: rest) := afterContent_of_plain opens first
      _ = body.afterContent (closing :: rest) := passes
      _ = body.afterContent rest := afterContent_of_plain ends last
  cases region <;> cases pair <;> first
    | exact nests.elim
    | exact flat rfl rfl rfl rfl rfl
    | exact afterContent_of_inner (by
        simp [afterInner?, openings, quoteOpenings, commentOpenings, roundOpenings,
          squareOpenings, curlyOpenings, closes])

end Region

theorem Brackets.nests {between : Region} {opening closing : Char}
    (pair : Brackets between opening closing) : between.Nests := by
  cases pair <;> exact trivial

theorem Brackets.closing_ne_quote {between : Region} {opening closing : Char}
    (pair : Brackets between opening closing) : closing ≠ '"' := by
  cases pair <;> decide

/-- Balanced text is passed over, in a bracket group as well as in a body. -/
theorem Balanced.afterContent {text : Text} (balanced : Balanced text) {region : Region}
    (nests : region.Nests) {behind : Text} (apart : behind.head? ≠ some '"') :
    region.afterContent (text ++ behind) = region.afterContent behind := by
  -- the text inside a group is read by the region of the group or, where parentheses and
  -- brackets do not count, by the region around it
  induction balanced generalizing region behind with
  | nil => rfl
  | char plain later inductionHypothesis =>
      exact (Region.afterContent_char nests plain _).trans (inductionHypothesis nests apart)
  | @lexeme token rest whole later inductionHypothesis =>
      rw [List.append_assoc]
      exact (Region.afterContent_lexeme nests (whole.append fun _ _ => apart)).trans
        (inductionHypothesis nests apart)
  | @group between opening closing inner rest pair inside later innerHypothesis
      laterHypothesis =>
      have quoteless : (closing :: (rest ++ behind)).head? ≠ some '"' := fun same =>
        pair.closing_ne_quote (Option.some.inj same)
      have mark : between.closing = some [closing] := by cases pair <;> rfl
      have closes : between.finish? (inner ++ closing :: (rest ++ behind)) =
          some (rest ++ behind) :=
        Region.finish?_of_afterContent mark
          ((innerHypothesis pair.nests quoteless).trans (Region.afterContent_closing pair _))
      have split : opening :: (inner ++ closing :: rest) ++ behind =
          opening :: (inner ++ closing :: (rest ++ behind)) := by simp
      rw [split, Region.afterContent_group nests pair closes (innerHypothesis nests quoteless)]
      exact laterHypothesis nests apart

end StyleMacros
