import StyleMacros.Proofs.Source.Balance
import StyleMacros.Proofs.Source.Inert
import StyleMacros.Proofs.Source.Placement
import StyleMacros.Proofs.Text.Words

/-!
# Reading token by token

A token is a comment, a string literal or a single character. Going on from token to token is how
sites are looked for, apart from what a site itself is made of, and how a bracket group is passed
over. No token of more than one character ends with whitespace.
-/

set_option autoImplicit false

namespace StyleMacros

namespace Text

def commentWords (words : Text) : Text :=
  trimEnd (words.takeWhile fun char => !isLineBreak char)

/-- The text behind the comment at the head. Blanks at the end of a line belong to no comment. -/
def behindComment? : Text → Option Text
  | '/' :: '/' :: words => some (words.drop (commentWords words).length)
  | '/' :: '*' :: words => Region.comment.finish? words
  | _ => none

def behindToken (text : Text) : Text :=
  ((behindComment? text).or (Region.afterQuoted? text)).getD (text.drop 1)

def LineEnds (text : Text) : Prop :=
  ∃ blanks later, text = blanks ++ later ∧ (∀ char ∈ blanks, isWhitespace char = true) ∧
    ∀ char ∈ later.head?, isLineBreak char = true

theorem LineEnds.of_head? {text : Text} (breaks : ∀ char ∈ text.head?, isLineBreak char = true) :
    text.LineEnds :=
  ⟨[], text, rfl, by simp, breaks⟩

/-! ## The kinds of tokens -/

/-- A token at the head of a text, and what stands behind it. -/
inductive Token : Text → Text → Prop
  | char {head : Char} {rest : Text} (noComment : afterComment? (head :: rest) = none)
      (noLiteral : Region.afterQuoted? (head :: rest) = none) : Token (head :: rest) rest
  | lineComment {words blanks : Text}
      (line : words = commentWords words ++ (blanks ++ Region.afterLine words))
      (blank : ∀ char ∈ blanks, isWhitespace char = true) :
      Token ('/' :: '/' :: words) (blanks ++ Region.afterLine words)
  | blockComment {words behind : Text} (closes : Region.comment.finish? words = some behind) :
      Token ('/' :: '*' :: words) behind
  | literal {rest behind : Text} (closes : Region.afterQuoted? ('"' :: rest) = some behind) :
      Token ('"' :: rest) behind

theorem afterQuoted?_of_noQuote {head : Char} (noQuote : head ≠ '"') (rest : Text) :
    Region.afterQuoted? (head :: rest) = none := by
  simp [Region.afterQuoted?, Region.quoteOpenings, noQuote]

theorem exists_blanks_of_lineComment (words : Text) :
    ∃ blanks, words = commentWords words ++ (blanks ++ Region.afterLine words) ∧
      behindToken ('/' :: '/' :: words) = blanks ++ Region.afterLine words ∧
      ∀ char ∈ blanks, isWhitespace char = true := by
  obtain ⟨blanks, line, spaces⟩ :=
    exists_blanks_of_trimEnd (words.takeWhile fun char => !isLineBreak char)
  have whole : words = commentWords words ++ (blanks ++ Region.afterLine words) := by
    rw [← List.append_assoc, commentWords, ← line]
    exact List.takeWhile_append_dropWhile.symm
  refine ⟨blanks, whole, ?_, spaces⟩
  have dropped := congrArg (List.drop (commentWords words).length) whole
  rwa [List.drop_left] at dropped

/-- What stands at the head of a text is a token. -/
theorem token_behindToken (head : Char) (rest : Text) :
    Token (head :: rest) (behindToken (head :: rest)) := by
  cases commented : behindComment? (head :: rest) with
  | some behind =>
      have same : behindToken (head :: rest) = behind := by
        rw [behindToken, commented]
        rfl
      unfold behindComment? at commented
      split at commented
      · rename_i words exact
        cases exact
        obtain ⟨blanks, line, cut, blank⟩ := exists_blanks_of_lineComment words
        rw [cut]
        exact .lineComment line blank
      · rename_i words exact
        cases exact
        rw [same]
        exact .blockComment commented
      · cases commented
  | none =>
      have noComment : afterComment? (head :: rest) = none := by
        unfold behindComment? at commented
        split at commented
        · cases commented
        · rename_i words exact
          rw [exact]
          exact commented
        · rename_i noLine noBlock
          unfold afterComment?
          split
          · exact absurd ‹_› (noLine _)
          · exact absurd ‹_› (noBlock _)
          · rfl
      have same : behindToken (head :: rest) =
          (Region.afterQuoted? (head :: rest)).getD rest := by
        rw [behindToken, commented]
        rfl
      rw [same]
      cases quoted : Region.afterQuoted? (head :: rest) with
      | none => exact .char noComment quoted
      | some behind =>
          obtain rfl : head = '"' := by
            by_contra noQuote
            rw [afterQuoted?_of_noQuote noQuote] at quoted
            cases quoted
          exact .literal quoted

theorem behindToken_of_notMem {head : Char} (plain : head ∉ ['"', '/']) (rest : Text) :
    behindToken (head :: rest) = rest := by
  have token := token_behindToken head rest
  generalize behindToken (head :: rest) = behind at token
  cases token with
  | char noComment noLiteral => rfl
  | lineComment line blank => simp at plain
  | blockComment closes => simp at plain
  | literal closes => simp at plain

theorem behindToken_quoted {rest behind : Text}
    (closes : Region.afterQuoted? ('"' :: rest) = some behind) :
    behindToken ('"' :: rest) = behind := by
  rw [behindToken, closes]
  rfl

theorem behindToken_lone {rest : Text} (opens : Region.afterQuoted? ('"' :: rest) = none) :
    behindToken ('"' :: rest) = rest := by
  rw [behindToken, opens]
  rfl

theorem finish?_literal_eq_none {line later : Text} (plain : ∀ char ∈ line, char ∉ ['"', '\\'])
    (breaks : ∀ char ∈ later.head?, isLineBreak char = true) :
    Region.literal.finish? (line ++ later) = none := by
  have stops {text : Text} (breaks : ∀ char ∈ text.head?, isLineBreak char = true) :
      Region.literal.finish? text = none := by
    cases text with
    | nil => rfl
    | cons head rest =>
        have feeds := breaks head rfl
        simp only [isLineBreak, Bool.or_eq_true, decide_eq_true_eq] at feeds
        rw [Region.finish?]
        rcases feeds with rfl | rfl <;> rw [Region.afterContent_of_none rfl rfl] <;> rfl
  induction line with
  | nil => exact stops breaks
  | cons head tail inductionHypothesis =>
      by_cases feeds : isLineBreak head = true
      · exact stops fun char first => Option.some.inj first ▸ feeds
      · have unmarked := plain head List.mem_cons_self
        have quiet : head ∉ ['"', '\\', '\n', '\r'] := by
          simp only [isLineBreak, Bool.or_eq_true, decide_eq_true_eq, not_or] at feeds
          simp only [List.mem_cons, List.not_mem_nil, or_false, not_or] at unmarked ⊢
          exact ⟨unmarked.1, unmarked.2, feeds⟩
        rw [Region.finish?, List.cons_append, Region.afterContent_literal_char quiet]
        exact inductionHypothesis fun char member => plain char (List.mem_cons_of_mem head member)

theorem afterQuoted?_eq_none {line other : Text} (plain : ∀ char ∈ line, char ∉ ['"', '\\'])
    (ends : other.LineEnds) : Region.afterQuoted? ('"' :: (line ++ other)) = none := by
  obtain ⟨blanks, later, rfl, blank, breaks⟩ := ends
  have quiet : ∀ char ∈ line ++ blanks, char ∉ ['"', '\\'] := by
    intro char member
    rcases List.mem_append.mp member with inside | inside
    · exact plain char inside
    · have solid : ∀ mark ∈ ['"', '\\'], isWhitespace mark = false := by decide
      intro mark
      have spaces := blank char inside
      rw [solid char mark] at spaces
      cases spaces
  rw [← List.append_assoc]
  have single : ¬ ['"', '"'] <+: line ++ blanks ++ later := by
    rintro ⟨rest, same⟩
    cases words : line ++ blanks with
    | nil =>
        rw [words, List.nil_append] at same
        have feeds := breaks '"' (by rw [← same]; rfl)
        revert feeds
        decide
    | cons head tail =>
        rw [words] at same
        have mark := quiet head (words ▸ List.mem_cons_self)
        rw [← (List.cons.inj same).1] at mark
        exact mark (by decide)
  rw [Region.afterQuoted?, Region.quoteOpenings_of_single single]
  simp only [List.findSome?_cons, finish?_literal_eq_none quiet breaks, List.findSome?_nil]

theorem behindToken_comment {words behind : Text}
    (closes : Region.comment.finish? words = some behind) :
    behindToken ('/' :: '*' :: words) = behind := by
  rw [behindToken, behindComment?, closes]
  rfl

theorem behindToken_slash {rest : Text} (apart : ∀ char ∈ rest.head?, char ∉ ['/', '*']) :
    behindToken ('/' :: rest) = rest := by
  have single : behindComment? ('/' :: rest) = none := by
    unfold behindComment?
    split
    · exact absurd (apart '/' (by simp_all)) (by decide)
    · exact absurd (apart '*' (by simp_all)) (by decide)
    · rfl
  rw [behindToken, single, afterQuoted?_of_noQuote (by decide)]
  rfl

theorem isLineBreak_of_mem_commentWords {words : Text} {char : Char}
    (member : char ∈ commentWords words) : isLineBreak char = false := by
  have inside : char ∈ words.takeWhile fun char => !isLineBreak char :=
    List.mem_reverse.mp ((List.dropWhile_sublist _).subset (List.mem_reverse.mp member))
  have quiet := List.mem_takeWhile_imp (p := fun char => !isLineBreak char) inside
  simpa using quiet

/-- A line comment stays what it is if only blanks stand behind it on its line. -/
theorem behindToken_lineComment (words : Text) {other : Text} (ends : other.LineEnds) :
    behindToken ('/' :: '/' :: (commentWords words ++ other)) = other := by
  obtain ⟨blanks, later, rfl, blank, breaks⟩ := ends
  have quiet : ∀ char ∈ commentWords words, (!isLineBreak char) = true := by
    intro char member
    rw [isLineBreak_of_mem_commentWords member]
    rfl
  have spaces : ∀ char ∈ (blanks ++ later).takeWhile fun char => !isLineBreak char,
      isWhitespace char = true := by
    have stops : later.takeWhile (fun char => !isLineBreak char) = [] := by
      cases later with
      | nil => rfl
      | cons head rest => simp [breaks head rfl]
    intro char member
    apply blank char
    rw [List.takeWhile_append, stops, List.append_nil] at member
    split at member
    · exact member
    · exact (List.takeWhile_sublist _).subset member
  have same : commentWords (commentWords words ++ (blanks ++ later)) = commentWords words := by
    rw [commentWords, List.takeWhile_append_of_pos quiet, trimEnd_append_blanks spaces]
    exact trimEnd_trimEnd _
  rw [behindToken, behindComment?, same, List.drop_left]
  rfl

namespace Token

variable {text behind : Text}

theorem exists_front (token : Token text behind) : ∃ head front, text = head :: (front ++ behind) := by
  cases token with
  | @char head rest noComment noLiteral => exact ⟨head, [], rfl⟩
  | @lineComment words blanks line blank =>
      exact ⟨'/', '/' :: commentWords words, congrArg ('/' :: '/' :: ·) line⟩
  | @blockComment words behind closes =>
      obtain ⟨front, rfl⟩ := Region.finish?_suffix closes
      exact ⟨'/', '*' :: front, rfl⟩
  | @literal rest behind closes =>
      have suffix := Region.findSome?_finish?_suffix Region.quoteOpenings_opensAtHead closes
      rcases List.suffix_cons_iff.mp suffix with whole | ⟨front, rfl⟩
      · obtain ⟨opened, member, ends⟩ := List.exists_of_findSome?_eq_some closes
        have shorter := Region.quoteOpenings_opensPastHead _ opened member
        have left := (Region.finish?_suffix ends).length_le
        rw [whole] at left
        omega
      · exact ⟨'"', front, rfl⟩

theorem closing_of_mem_quoteOpenings {text mark : Text} {opened : Region × Text}
    (member : opened ∈ Region.quoteOpenings text) (marked : opened.1.closing = some mark) :
    ∃ front, mark = front ++ ['"'] := by
  have kinds : opened.1 = .literal ∨ opened.1 = .multiline := by
    unfold Region.quoteOpenings at member
    split at member
    · simp only [List.mem_cons, List.not_mem_nil, or_false] at member
      rcases member with rfl | rfl
      · exact .inr rfl
      · exact .inl rfl
    · cases List.mem_singleton.mp member
      exact .inl rfl
    · cases member
  rcases kinds with kind | kind
  · rw [kind] at marked
    cases Option.some.inj marked
    exact ⟨[], rfl⟩
  · rw [kind] at marked
    cases Option.some.inj marked
    exact ⟨['"', '"'], rfl⟩

theorem solid (token : Token text behind) {front : Text} {last : Char}
    (split : text = front ++ last :: behind) (long : front ≠ []) : isWhitespace last = false := by
  have ends (lead : Text) (final : Char) (same : text = lead ++ [final] ++ behind) :
      final = last := by
    have cut : lead ++ [final] ++ behind = front ++ [last] ++ behind := by
      rw [← same, split, List.append_assoc]
      rfl
    exact (List.cons.inj (List.append_inj' (List.append_cancel_right cut) rfl).2).1
  cases token with
  | @char head rest noComment noLiteral =>
      have length := congrArg List.length split
      rw [List.length_append, List.length_cons, List.length_cons] at length
      exact absurd (List.length_eq_zero_iff.mp (by omega)) long
  | @lineComment words blanks line blank =>
      by_cases empty : commentWords words = []
      · rw [← ends ['/'] '/' (congrArg ('/' :: '/' :: ·) (empty ▸ line))]
        decide
      · obtain ⟨lead, final, exact, blankless⟩ := exists_solid_end_of_trimEnd empty
        rw [← ends ('/' :: '/' :: lead) final]
        · exact blankless
        · rw [commentWords, exact] at line
          exact congrArg ('/' :: '/' :: ·) line
  | @blockComment words behind closes =>
      obtain ⟨inner, exact⟩ := exists_inner_of_finish?_comment closes
      rw [← ends ('/' :: '*' :: (inner ++ ['*'])) '/' (by simp [exact])]
      decide
  | @literal rest behind closes =>
      obtain ⟨opened, member, closes⟩ := List.exists_of_findSome?_eq_some closes
      obtain ⟨mark, marked, content⟩ := Region.append_of_afterClosing closes
      obtain ⟨inner, whole⟩ := (opened.1.afterContent_suffix opened.2).trans
        (Region.quoteOpenings_opensAtHead _ opened member)
      obtain ⟨quotes, rfl⟩ := closing_of_mem_quoteOpenings member marked
      rw [← ends (inner ++ quotes) '"' (by rw [← whole, ← content]; simp)]
      decide

end Token

theorem behindToken_suffix (head : Char) (rest : Text) : behindToken (head :: rest) <:+ rest := by
  obtain ⟨first, front, exact⟩ := (token_behindToken head rest).exists_front
  exact ⟨front, (List.cons.inj exact).2.symm⟩

/-! ## From token to token -/

theorem notMem_of_isWhitespace {char : Char} (blank : isWhitespace char = true) :
    char ∉ ['@', '"', '/'] := by
  intro member
  have solid : ∀ mark ∈ ['@', '"', '/'], isWhitespace mark = false := by decide
  rw [solid char member] at blank
  cases blank

section Facts

variable {Holds : Text → Prop}
  (next : ∀ head rest, head ≠ '@' → Holds (head :: rest) → Holds (behindToken (head :: rest)))

include next

/-- What holds from token to token holds behind blanks. -/
theorem of_blanks_append {blanks rest : Text} (blank : ∀ char ∈ blanks, isWhitespace char = true)
    (holds : Holds (blanks ++ rest)) : Holds rest := by
  induction blanks with
  | nil => exact holds
  | cons head tail inductionHypothesis =>
      have plain := notMem_of_isWhitespace (blank head List.mem_cons_self)
      rw [List.mem_cons, not_or] at plain
      have passed := next head (tail ++ rest) plain.1 holds
      rw [behindToken_of_notMem plain.2] at passed
      exact inductionHypothesis (fun char member => blank char (List.mem_cons_of_mem head member)) passed

/-- What holds from token to token, attributes apart, holds behind trivia. -/
theorem of_skipTrivia {text : Text} (holds : Holds text) : Holds (skipTrivia text) := by
  induction length : text.length using Nat.strongRecOn generalizing text with
  | ind length inductionHypothesis =>
      subst length
      cases text with
      | nil => exact holds
      | cons head rest =>
          have passed := fun apart => next head rest apart holds
          have shorter := (behindToken_suffix head rest).length_le
          have token := token_behindToken head rest
          generalize behindToken (head :: rest) = behind at token passed shorter
          cases token with
          | char noComment noLiteral =>
              by_cases blank : isTokenBlank head = true
              · have apart := notMem_of_isWhitespace (isWhitespace_of_isTokenBlank head blank)
                rw [skipTrivia_of_blank blank]
                exact inductionHypothesis _ (Nat.lt_succ_self _) (passed (by simp_all)) rfl
              · rw [skipTrivia_cons, if_neg blank, noComment]
                exact holds
          | @lineComment words blanks line blank =>
              have later := of_blanks_append next blank (passed (by decide))
              rw [List.length_append] at shorter
              rw [skipTrivia_cons, if_neg (by decide)]
              exact inductionHypothesis _ (by rw [List.length_cons]; omega) later rfl
          | @blockComment words behind closes =>
              rw [skipTrivia_cons, if_neg (by decide), afterComment?, closes]
              exact inductionHypothesis _ (Nat.lt_succ_of_le shorter) (passed (by decide)) rfl
          | literal closes =>
              rw [skipTrivia_of_token (by decide) (by decide)]
              exact holds

end Facts

/-! ## Bracket groups -/

theorem mem_openings_cases {region : Region} (nests : region.Nests) {text : Text}
    {opened : Region × Text} (member : opened ∈ region.openings text) :
    opened ∈ Region.quoteOpenings text ∨ opened ∈ Region.commentOpenings text ∨
      ∃ opening closing, Brackets opened.1 opening closing ∧ text = opening :: opened.2 := by
  have round : opened ∈ Region.roundOpenings text → ∃ opening closing,
      Brackets opened.1 opening closing ∧ text = opening :: opened.2 := by
    unfold Region.roundOpenings
    split
    · rintro (_ | ⟨_, ⟨⟩⟩)
      exact ⟨_, _, .round, rfl⟩
    · nofun
  have square : opened ∈ Region.squareOpenings text → ∃ opening closing,
      Brackets opened.1 opening closing ∧ text = opening :: opened.2 := by
    unfold Region.squareOpenings
    split
    · rintro (_ | ⟨_, ⟨⟩⟩)
      exact ⟨_, _, .square, rfl⟩
    · nofun
  have curly : opened ∈ Region.curlyOpenings text → ∃ opening closing,
      Brackets opened.1 opening closing ∧ text = opening :: opened.2 := by
    unfold Region.curlyOpenings
    split
    · rintro (_ | ⟨_, ⟨⟩⟩)
      exact ⟨_, _, .curly, rfl⟩
    · nofun
  cases region <;> first
    | exact nests.elim
    | simp only [Region.openings, List.mem_append] at member
      tauto

theorem finish?_of_mem_commentOpenings {text : Text} (noComment : afterComment? text = none)
    {opened : Region × Text} (member : opened ∈ Region.commentOpenings text) :
    opened.1.finish? opened.2 = none := by
  unfold Region.commentOpenings at member
  split at member
  · cases List.mem_singleton.mp member
    exact noComment
  · cases member

/-- A group that closes has its closing mark behind its content. -/
theorem afterContent_of_finish? {between : Region} {opening closing : Char}
    (pair : Brackets between opening closing) {content behind : Text}
    (closes : between.finish? content = some behind) :
    between.afterContent content = closing :: behind := by
  obtain ⟨mark, marked, exact⟩ := Region.append_of_afterClosing closes
  cases pair <;>
    · cases Option.some.inj marked
      exact exact.symm

/-- What a bracket group passes over at a place where nothing opens is one character. -/
theorem plain_eq {region : Region} (nests : region.Nests) {head : Char} {rest behind : Text}
    (noComment : afterComment? (head :: rest) = none)
    (plain : region.plain (head :: rest) = some behind) : behind = rest := by
  have single {stops : List Char} (plain : Region.lineCommentOr stops (head :: rest) = some behind) :
      behind = rest := by
    unfold Region.lineCommentOr at plain
    split at plain
    · rename_i same
      cases same
      cases noComment
    · simp only [Region.otherThan] at plain
      split at plain
      · cases plain
      · exact (Option.some.inj plain).symm
  cases region <;> first
    | exact nests.elim
    | exact single plain

theorem of_afterContent (Holds : Text → Prop)
    (next : ∀ head rest, Holds (head :: rest) → Holds (behindToken (head :: rest)))
    {region : Region} (nests : region.Nests) {text : Text} (holds : Holds text) :
    Holds (region.afterContent text) := by
  induction length : text.length using Nat.strongRecOn generalizing text region with
  | ind length inductionHypothesis =>
      subst length
      cases text with
      | nil => exact holds
      | cons head rest =>
          have passed := next head rest holds
          have shorter := (behindToken_suffix head rest).length_le
          have token := token_behindToken head rest
          generalize behindToken (head :: rest) = behind at token passed shorter
          cases token with
          | lineComment line blank =>
              have later := of_blanks_append (fun head rest _ => next head rest) blank passed
              rw [List.length_append] at shorter
              rw [Region.afterContent_of_plain (Region.afterInner?_of_lineComment nests _)
                (Region.plain_of_lineComment nests _)]
              exact inductionHypothesis _ (by rw [List.length_cons]; omega) nests later rfl
          | blockComment closes =>
              rw [Region.afterContent_of_inner (Region.afterInner?_of_comment nests closes)]
              exact inductionHypothesis _ (Nat.lt_succ_of_le shorter) nests passed rfl
          | literal closes =>
              rw [Region.afterContent_of_inner (Region.afterInner?_of_quoted nests closes)]
              exact inductionHypothesis _ (Nat.lt_succ_of_le shorter) nests passed rfl
          | char noComment noLiteral =>
              rw [Region.afterContent_eq]
              split
              · rename_i behind inner
                have less := Region.afterInner?_shorter inner
                obtain ⟨⟨between, content⟩, member, closes⟩ := List.exists_of_findSome?_eq_some inner
                rcases mem_openings_cases nests member with
                  quoted | commented | ⟨opening, closing, pair, split⟩
                · rw [List.findSome?_eq_none_iff.mp noLiteral _ quoted] at closes
                  cases closes
                · rw [finish?_of_mem_commentOpenings noComment commented] at closes
                  cases closes
                · cases split
                  have inside := inductionHypothesis _ (Nat.lt_succ_self _) pair.nests passed rfl
                  rw [afterContent_of_finish? pair closes] at inside
                  have outside := next closing behind inside
                  rw [behindToken_of_notMem (by cases pair <;> decide)] at outside
                  exact inductionHypothesis _ less nests outside rfl
              · split
                · rename_i behind plain
                  rw [plain_eq nests noComment plain]
                  exact inductionHypothesis _ (Nat.lt_succ_self _) nests passed rfl
                · exact holds

/-! ## Sites -/

variable {total : Nat}

theorem sitesFrom_blanks_append {blanks : Text} (blank : ∀ char ∈ blanks, isWhitespace char = true)
    (rest : Text) : sitesFrom total (blanks ++ rest) = sitesFrom total rest := by
  induction blanks with
  | nil => rfl
  | cons head tail inductionHypothesis =>
      rw [List.cons_append, sitesFrom_char (notMem_of_isWhitespace (blank head List.mem_cons_self))]
      exact inductionHypothesis fun char member => blank char (List.mem_cons_of_mem head member)

theorem sitesFrom_behindToken {head : Char} (noMark : head ≠ '@') (rest : Text) :
    sitesFrom total (head :: rest) = sitesFrom total (behindToken (head :: rest)) := by
  have token := token_behindToken head rest
  generalize behindToken (head :: rest) = behind at token
  cases token with
  | char noComment noLiteral =>
      by_cases blank : isTokenBlank head = true
      · exact sitesFrom_congr (skipTrivia_of_blank blank rest)
      · rw [sitesFrom_eq, skipTrivia_cons, if_neg blank, noComment]
        simp only [readSite_of_noMark noMark, afterSkipped, noLiteral, Option.getD_none, List.drop_one,
          List.tail_cons]
  | @lineComment words blanks line blank =>
      rw [sitesFrom_blanks_append blank]
      exact sitesFrom_congr (by rw [skipTrivia_cons, if_neg (by decide)]; rfl)
  | @blockComment words behind closes =>
      exact sitesFrom_congr (by rw [skipTrivia_cons, if_neg (by decide), afterComment?, closes])
  | literal closes =>
      rw [sitesFrom_eq, skipTrivia_of_token (by decide) (by decide)]
      simp only [readSite_of_noMark noMark, afterSkipped, closes, Option.getD_some]

/-- An attribute that opens no site is passed over from its at sign on. -/
theorem sitesFrom_of_readSite_eq_none {rest : Text} (none : readSite total ('@' :: rest) = none) :
    sitesFrom total ('@' :: rest) = sitesFrom total rest := by
  rw [sitesFrom_eq, skipTrivia_of_token (by decide) (by decide)]
  simp only [none, afterSkipped_of_noQuote (by decide : '@' ≠ '"')]

/-- Behind the first token there are no more sites than in the whole. -/
theorem sitesFrom_behindToken_eq_nil {head : Char} {rest : Text}
    (none : sitesFrom total (head :: rest) = []) :
    sitesFrom total (behindToken (head :: rest)) = [] := by
  by_cases mark : head = '@'
  · subst mark
    rw [behindToken_of_notMem (by decide), ← none]
    refine (sitesFrom_of_readSite_eq_none (Option.eq_none_iff_forall_ne_some.mpr ?_)).symm
    rintro ⟨site, behind⟩ success
    rw [sitesFrom_of_readSite (skipTrivia_of_token (by decide) (by decide) rest) success] at none
    cases none
  · rw [← sitesFrom_behindToken mark, none]

theorem sitesFrom_eq_nil_of_append {front rest : Text} (plain : ∀ char ∈ front, char ∉ ['"', '/'])
    (none : sitesFrom total (front ++ rest) = []) : sitesFrom total rest = [] := by
  induction front with
  | nil => exact none
  | cons head others inductionHypothesis =>
      have passed := sitesFrom_behindToken_eq_nil none
      rw [behindToken_of_notMem (plain head List.mem_cons_self)] at passed
      exact inductionHypothesis (fun char member => plain char (List.mem_cons_of_mem head member)) passed

theorem attributes_foreign {Holds : Text → Prop}
    (next : ∀ head rest, Holds (head :: rest) → Holds (behindToken (head :: rest)))
    (foreign : ∀ text written rest, Holds text → readAttribute total text = some (written, rest) →
      written.macroName? = none ∧ Holds rest)
    {text last : Text} {read : List Attribute}
    (run : ReadsInTurn (readAttribute total) text read last) (holds : Holds text) :
    ∀ written ∈ read, written.macroName? = none := by
  induction run with
  | done text => simp
  | next success later inductionHypothesis =>
      have start := of_skipTrivia (fun head rest _ => next head rest) holds
      obtain ⟨named, rest⟩ := foreign _ _ _ start success
      exact List.forall_mem_cons.mpr ⟨named, inductionHypothesis rest⟩

/-- Texts that are closed under tokens, and under attributes that name no macro, hold no site. -/
theorem sitesFrom_eq_nil_of_tokens (Holds : Text → Prop)
    (next : ∀ head rest, Holds (head :: rest) → Holds (behindToken (head :: rest)))
    (foreign : ∀ text written rest, Holds text → readAttribute total text = some (written, rest) →
      written.macroName? = none ∧ Holds rest) {text : Text} (holds : Holds text) :
    sitesFrom total text = [] := by
  have noSite {text : Text} (holds : Holds text) : readSite total text = none := by
    unfold readSite
    split
    · rfl
    · rename_i first behind success
      obtain ⟨named, later⟩ := foreign _ _ _ holds success
      have others := attributes_foreign next foreign
        (readMany_readsInTurn (readAttribute total) behind.length behind) later
      simp only
      rw [if_neg]
      intro some
      obtain ⟨written, member, macroNamed⟩ := List.any_eq_true.mp some
      have none : written.macroName? = Option.none := by
        rcases List.mem_cons.mp member with rfl | member
        · exact named
        · exact others written member
      rw [none] at macroNamed
      cases macroNamed
  induction length : text.length using Nat.strongRecOn generalizing text with
  | ind length inductionHypothesis =>
      subst length
      cases text with
      | nil => exact (sitesFrom_eq total []).trans rfl
      | cons head rest =>
          have later := inductionHypothesis _
            (Nat.lt_succ_of_le (behindToken_suffix head rest).length_le) (next head rest holds) rfl
          by_cases mark : head = '@'
          · subst mark
            rw [behindToken_of_notMem (by decide)] at later
            rw [sitesFrom_of_readSite_eq_none (noSite holds), later]
          · rw [sitesFrom_behindToken mark, later]

end Text

end StyleMacros
