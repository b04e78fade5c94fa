import StyleMacros.Source.Trivia
import StyleMacros.Proofs.Source.Regions
import StyleMacros.Proofs.Text.Blanks

/-!
# Trivia up to a place

A text may have nothing but whitespace and complete comments in front of a given end part of it.
For the end part that starts behind the last solid character of the first line this is decided
by going through the comments of that line.
-/

set_option autoImplicit false

namespace StyleMacros.Text

/-! ## Whitespace and complete comments -/

/-- Nothing but whitespace and complete comments stands in front of the end part `rest`. A line
comment is complete if only whitespace is left of its line. -/
inductive TriviaUpTo (rest : Text) : Text → Prop
  | done : TriviaUpTo rest rest
  | blank {char : Char} {text : Text} (blank : isWhitespace char = true)
      (later : TriviaUpTo rest text) : TriviaUpTo rest (char :: text)
  | lineComment {words blanks behind : Text}
      (inLine : ∀ char ∈ words ++ blanks, isLineBreak char = false)
      (blank : ∀ char ∈ blanks, isWhitespace char = true)
      (ends : behind = [] ∨ ∃ feed others, behind = feed :: others ∧ isLineBreak feed = true)
      (later : TriviaUpTo rest (blanks ++ behind)) :
      TriviaUpTo rest ('/' :: '/' :: (words ++ (blanks ++ behind)))
  | blockComment {text behind : Text} (closes : Region.comment.finish? text = some behind)
      (later : TriviaUpTo rest behind) : TriviaUpTo rest ('/' :: '*' :: text)

theorem TriviaUpTo.suffix {rest text : Text} (trivia : TriviaUpTo rest text) : rest <:+ text := by
  induction trivia with
  | done => exact List.suffix_refl rest
  | blank _ _ inductionHypothesis => exact inductionHypothesis.trans (List.suffix_cons _ _)
  | @lineComment words _ _ _ _ _ _ inductionHypothesis =>
      exact inductionHypothesis.trans (List.suffix_append ('/' :: '/' :: words) _)
  | blockComment closes _ inductionHypothesis =>
      exact (inductionHypothesis.trans (Region.finish?_suffix closes)).trans
        (List.suffix_append ['/', '*'] _)

/-! ## The first line -/

def afterCommentOnLine? : Text → Option Text
  | '/' :: '/' :: comment => some (Region.afterLine comment)
  | '/' :: '*' :: comment =>
    (Region.comment.finish? comment).filter fun behind => !(before comment behind).contains '\n'
  | _ => none

def lineIsTriviaWithin : Nat → Text → Bool
  | 0, text => text.isEmpty
  | _ + 1, [] => true
  | fuel + 1, head :: rest =>
    if head = '\n' then true
    else if isWhitespace head then lineIsTriviaWithin fuel rest
    else
      match afterCommentOnLine? (head :: rest) with
      | some behind => lineIsTriviaWithin fuel behind
      | none => false

/-- Whether the first line of a text holds nothing but whitespace and comments that end on it. -/
def lineIsTrivia (text : Text) : Bool :=
  lineIsTriviaWithin text.length text

theorem afterCommentOnLine?_cases {text behind : Text}
    (success : afterCommentOnLine? text = some behind) :
    (∃ comment, text = '/' :: '/' :: comment ∧ behind = Region.afterLine comment) ∨
      ∃ comment, text = '/' :: '*' :: comment ∧
        Region.comment.finish? comment = some behind ∧ '\n' ∉ before comment behind := by
  unfold afterCommentOnLine? at success
  split at success
  · rename_i comment
    exact .inl ⟨comment, rfl, (Option.some.inj success).symm⟩
  · rename_i comment
    obtain ⟨closes, inLine⟩ := Option.filter_eq_some_iff.mp success
    exact .inr ⟨comment, rfl, closes, by simpa using inLine⟩
  · cases success

theorem afterCommentOnLine?_shorter {head : Char} {rest behind : Text}
    (success : afterCommentOnLine? (head :: rest) = some behind) : behind.length ≤ rest.length := by
  rcases afterCommentOnLine?_cases success with ⟨comment, split, rfl⟩ | ⟨comment, split, closes, _⟩
  · cases split
    exact ((Region.afterLine_suffix comment).trans (List.suffix_cons _ _)).length_le
  · cases split
    exact ((Region.finish?_suffix closes).trans (List.suffix_cons _ _)).length_le

theorem lineIsTriviaWithin_eq {fuel fuel' : Nat} {text : Text} (enough : text.length ≤ fuel)
    (enough' : text.length ≤ fuel') :
    lineIsTriviaWithin fuel text = lineIsTriviaWithin fuel' text := by
  induction fuel generalizing fuel' text with
  | zero =>
      cases List.length_eq_zero_iff.mp (Nat.le_zero.mp enough)
      cases fuel' <;> rfl
  | succ fuel inductionHypothesis =>
      cases text with
      | nil => cases fuel' <;> rfl
      | cons head rest =>
          cases fuel' with
          | zero => simp at enough'
          | succ fuel' =>
              rw [List.length_cons] at enough enough'
              have remaining : lineIsTriviaWithin fuel rest = lineIsTriviaWithin fuel' rest :=
                inductionHypothesis (by omega) (by omega)
              rw [lineIsTriviaWithin, lineIsTriviaWithin, remaining]
              cases success : afterCommentOnLine? (head :: rest) with
              | none => rfl
              | some behind =>
                  have length := afterCommentOnLine?_shorter success
                  have shorter : lineIsTriviaWithin fuel behind = lineIsTriviaWithin fuel' behind :=
                    inductionHypothesis (by omega) (by omega)
                  simp only [shorter]

theorem lineIsTrivia_cons (head : Char) (rest : Text) :
    lineIsTrivia (head :: rest) =
      if head = '\n' then true
      else if isWhitespace head then lineIsTrivia rest
      else
        match afterCommentOnLine? (head :: rest) with
        | some behind => lineIsTrivia behind
        | none => false := by
  rw [lineIsTrivia, List.length_cons, lineIsTriviaWithin]
  cases success : afterCommentOnLine? (head :: rest) with
  | none => rfl
  | some behind =>
      have shorter := lineIsTriviaWithin_eq (afterCommentOnLine?_shorter success) (Nat.le_refl _)
      simp only [shorter, lineIsTrivia]

/-! ## The rest of a line -/

def FirstLineBlank (text : Text) : Prop :=
  ∃ blanks later, text = blanks ++ later ∧
    (∀ char ∈ blanks, isWhitespace char = true ∧ char ≠ '\n') ∧
    (later = [] ∨ ∃ others, later = '\n' :: others)

namespace FirstLineBlank

variable {rest : Text}

theorem isWhitespace_of_lead (blank : FirstLineBlank rest) {lead behind : Text}
    (split : rest = lead ++ behind) (inLine : '\n' ∉ lead) :
    ∀ char ∈ lead, isWhitespace char = true := by
  obtain ⟨blanks, later, exact, spaces, ends⟩ := blank
  rw [exact] at split
  rcases List.append_eq_append_iff.mp split with ⟨middle, longer, shorter⟩ | ⟨middle, whole, _⟩
  · cases middle with
    | nil =>
        rw [longer, List.append_nil]
        exact fun char member => (spaces char member).1
    | cons head tail =>
        rcases ends with none | ⟨others, feed⟩
        · rw [none] at shorter
          cases shorter
        · rw [feed] at shorter
          have same : '\n' = head := (List.cons.inj shorter).1
          rw [longer, ← same] at inLine
          simp at inLine
  · intro char member
    apply (spaces char _).1
    rw [whole]
    exact List.mem_append_left middle member

theorem exists_tail (blank : FirstLineBlank rest) {piece text : Text} {char : Char}
    (split : piece ++ rest = char :: text) (solid : isWhitespace char = false) :
    ∃ tail, piece = char :: tail ∧ text = tail ++ rest := by
  cases piece with
  | nil =>
      have other : '\n' ∉ [char] := by
        intro member
        rw [← List.mem_singleton.mp member] at solid
        exact absurd solid (by decide)
      have first : rest = [char] ++ text := split
      rw [blank.isWhitespace_of_lead first other char List.mem_cons_self] at solid
      cases solid
  | cons head tail =>
      obtain ⟨rfl, rfl⟩ := List.cons.inj split
      exact ⟨tail, rfl, rfl⟩

end FirstLineBlank

theorem lineIsTrivia_blanks_append {blanks : Text} (later : Text)
    (spaces : ∀ char ∈ blanks, isWhitespace char = true ∧ char ≠ '\n') :
    lineIsTrivia (blanks ++ later) = lineIsTrivia later := by
  induction blanks with
  | nil => rfl
  | cons head tail inductionHypothesis =>
      obtain ⟨blank, inLine⟩ := spaces head List.mem_cons_self
      rw [List.cons_append, lineIsTrivia_cons, if_neg inLine, if_pos blank]
      exact inductionHypothesis fun char member => spaces char (List.mem_cons_of_mem head member)

theorem FirstLineBlank.lineIsTrivia {rest : Text} (blank : FirstLineBlank rest) :
    lineIsTrivia rest = true := by
  obtain ⟨blanks, later, rfl, spaces, ends⟩ := blank
  rw [lineIsTrivia_blanks_append later spaces]
  rcases ends with rfl | ⟨others, rfl⟩
  · rfl
  · rw [lineIsTrivia_cons, if_pos rfl]

/-! ## Comments on a line -/

theorem exists_quiet_front (text : Text) :
    ∃ front tail, text = front ++ tail ∧ (∀ char ∈ front, isLineBreak char = false) ∧
      (tail = [] ∨ ∃ feed others, tail = feed :: others ∧ isLineBreak feed = true) := by
  refine ⟨text.takeWhile fun char => !isLineBreak char,
    text.dropWhile fun char => !isLineBreak char, List.takeWhile_append_dropWhile.symm, ?_, ?_⟩
  · intro char member
    simpa using List.mem_takeWhile_imp member
  · rcases dropWhile_cases (fun char => !isLineBreak char) text with
      none | ⟨feed, others, exact, fails⟩
    · exact .inl none
    · exact .inr ⟨feed, others, exact, by simpa using fails⟩

theorem afterLine_append {words behind : Text}
    (inLine : ∀ char ∈ words, isLineBreak char = false)
    (ends : behind = [] ∨ ∃ feed others, behind = feed :: others ∧ isLineBreak feed = true) :
    Region.afterLine (words ++ behind) = behind := by
  rw [Region.afterLine, List.dropWhile_append_of_pos (by simpa using inLine)]
  rcases ends with rfl | ⟨feed, others, rfl, feedBreaks⟩
  · rfl
  · simp [feedBreaks]

theorem exists_inner_of_finish?_comment {comment behind : Text}
    (closes : Region.comment.finish? comment = some behind) :
    ∃ inner, comment = inner ++ ['*', '/'] ++ behind := by
  obtain ⟨mark, marked, content⟩ := Region.append_of_afterClosing closes
  cases Option.some.inj marked
  obtain ⟨inner, whole⟩ := Region.comment.afterContent_suffix comment
  refine ⟨inner, ?_⟩
  rw [← whole, ← content, List.append_assoc]
  rfl

/-- A block comment that ends on the line does not reach into its last blanks. -/
theorem FirstLineBlank.exists_tail_of_finish? {rest words behind : Text}
    (blank : FirstLineBlank rest)
    (closes : Region.comment.finish? (words ++ rest) = some behind)
    (onLine : '\n' ∉ before (words ++ rest) behind) :
    ∃ front tail, words = front ++ tail ∧ behind = tail ++ rest := by
  obtain ⟨inner, split⟩ := exists_inner_of_finish?_comment closes
  rw [split, before_append] at onLine
  rcases List.append_eq_append_iff.mp split with ⟨middle, longer, shorter⟩ | ⟨middle, whole, exact⟩
  · rcases List.eq_nil_or_concat middle with rfl | ⟨front, last, rfl⟩
    · exact ⟨words, [], (List.append_nil words).symm, shorter.symm⟩
    · rw [List.concat_eq_append] at longer shorter
      -- the closing mark would stand in the blanks
      have same : '/' = last := by
        have ending := congrArg List.getLast? longer
        simpa using ending
      have inLine : '\n' ∉ front ++ [last] := by
        intro member
        exact onLine (longer ▸ List.mem_append_right words member)
      have space := blank.isWhitespace_of_lead shorter inLine last (by simp)
      rw [← same] at space
      exact absurd space (by decide)
  · exact ⟨_, middle, whole, exact⟩

/-! ## Trivia on a line -/

theorem TriviaUpTo.lineIsTrivia {rest text : Text} (trivia : TriviaUpTo rest text)
    (blank : FirstLineBlank rest) {piece : Text} (split : text = piece ++ rest)
    (inLine : '\n' ∉ piece) : lineIsTrivia text = true := by
  -- what is left at each step ends with the rest, so that its front part is on the line too
  induction trivia generalizing piece with
  | done => exact blank.lineIsTrivia
  | @blank head text space later inductionHypothesis =>
      obtain ⟨tail, exact⟩ := later.suffix
      have whole : piece = head :: tail :=
        List.append_cancel_right (split.symm.trans (congrArg (head :: ·) exact.symm))
      rw [whole, List.mem_cons, not_or] at inLine
      rw [lineIsTrivia_cons, if_neg (Ne.symm inLine.1), if_pos space]
      exact inductionHypothesis exact.symm inLine.2
  | @lineComment words blanks behind quiet spaces ends later inductionHypothesis =>
      obtain ⟨tail, exact⟩ := later.suffix
      have same : piece ++ rest = '/' :: '/' :: (words ++ tail) ++ rest := by
        rw [← split, ← exact]
        simp
      have whole := List.append_cancel_right same
      have remaining := inductionHypothesis exact.symm fun member =>
        inLine (by simp [whole, member])
      rw [lineIsTrivia_blanks_append] at remaining
      · rw [lineIsTrivia_cons, if_neg (by decide), if_neg (by decide), afterCommentOnLine?,
          ← List.append_assoc, afterLine_append quiet ends]
        exact remaining
      · intro char member
        refine ⟨spaces char member, ?_⟩
        rintro rfl
        exact absurd (quiet '\n' (List.mem_append_right words member)) (by decide)
  | @blockComment comment behind closes later inductionHypothesis =>
      obtain ⟨tail, exact⟩ := later.suffix
      obtain ⟨front, consumed⟩ := Region.finish?_suffix closes
      have same : piece ++ rest = '/' :: '*' :: (front ++ tail) ++ rest := by
        rw [← split, ← consumed, ← exact]
        simp
      have whole := List.append_cancel_right same
      have remaining := inductionHypothesis exact.symm fun member =>
        inLine (by simp [whole, member])
      have onLine : '\n' ∉ before comment behind := by
        rw [← consumed, before_append]
        exact fun member => inLine (by simp [whole, member])
      have reads : afterCommentOnLine? ('/' :: '*' :: comment) = some behind :=
        Option.filter_eq_some_iff.mpr ⟨closes, by simpa using onLine⟩
      rw [lineIsTrivia_cons, if_neg (by decide), if_neg (by decide), reads]
      exact remaining

/-- A line comment in front of the last blanks of the line goes up to them, unless a carriage
return ends it before. -/
theorem FirstLineBlank.triviaUpTo_lineComment {rest words : Text} (blank : FirstLineBlank rest)
    (inLine : '\n' ∉ words)
    (later : ∀ tail, '\n' ∉ tail → Region.afterLine (words ++ rest) = tail ++ rest →
      TriviaUpTo rest (tail ++ rest)) :
    TriviaUpTo rest ('/' :: '/' :: (words ++ rest)) := by
  obtain ⟨front, tail, rfl, quiet, ends⟩ := exists_quiet_front words
  rcases ends with rfl | ⟨feed, others, rfl, feedBreaks⟩
  · -- the comment goes on to the end of the line, past the blanks
    obtain ⟨blanks, behind, rfl, quietRest, endsRest⟩ := exists_quiet_front rest
    rw [List.append_nil]
    apply TriviaUpTo.lineComment _ _ endsRest .done
    · intro char member
      exact (List.mem_append.mp member).elim (quiet char) (quietRest char)
    · apply blank.isWhitespace_of_lead rfl
      intro member
      exact absurd (quietRest '\n' member) (by decide)
  · have ends : feed :: others ++ rest = [] ∨ ∃ feed' others', feed :: others ++ rest =
        feed' :: others' ∧ isLineBreak feed' = true :=
      .inr ⟨feed, others ++ rest, rfl, feedBreaks⟩
    have reads : Region.afterLine (front ++ feed :: others ++ rest) = feed :: others ++ rest := by
      rw [List.append_assoc]
      exact afterLine_append quiet ends
    have onLine : '\n' ∉ feed :: others := fun member => inLine (List.mem_append_right front member)
    have comment : TriviaUpTo rest ('/' :: '/' :: (front ++ ([] ++ (feed :: others ++ rest)))) :=
      .lineComment (by simpa using quiet) (by simp) ends (later _ onLine reads)
    rwa [List.append_assoc]

theorem triviaUpTo_of_lineIsTriviaWithin {rest piece : Text} {fuel : Nat}
    (blank : FirstLineBlank rest) (inLine : '\n' ∉ piece)
    (accepted : lineIsTriviaWithin fuel (piece ++ rest) = true) :
    TriviaUpTo rest (piece ++ rest) := by
  -- no comment of the line reaches into the rest, so that each step leaves a shorter piece
  induction fuel generalizing piece with
  | zero =>
      rw [lineIsTriviaWithin, List.isEmpty_iff, List.append_eq_nil_iff] at accepted
      rw [accepted.1]
      exact .done
  | succ fuel inductionHypothesis =>
      cases piece with
      | nil => exact .done
      | cons head tail =>
          rw [List.mem_cons, not_or] at inLine
          rw [List.cons_append, lineIsTriviaWithin, if_neg (Ne.symm inLine.1)] at accepted
          split at accepted
          · rename_i space
            exact .blank space (inductionHypothesis inLine.2 accepted)
          · split at accepted
            · rename_i behind success
              rcases afterCommentOnLine?_cases success with
                ⟨comment, split, rfl⟩ | ⟨comment, split, closes, onLine⟩
              · obtain ⟨rfl, opened⟩ := List.cons.inj split
                obtain ⟨words, rfl, rfl⟩ := blank.exists_tail opened (by decide)
                exact blank.triviaUpTo_lineComment (fun member => inLine.2 (by simp [member]))
                  fun tail onLine reads => inductionHypothesis onLine (reads ▸ accepted)
              · obtain ⟨rfl, opened⟩ := List.cons.inj split
                obtain ⟨words, rfl, rfl⟩ := blank.exists_tail opened (by decide)
                obtain ⟨front, tail, rfl, rfl⟩ := blank.exists_tail_of_finish? closes onLine
                refine .blockComment closes (inductionHypothesis ?_ accepted)
                intro member
                exact inLine.2 (by simp [member])
            · cases accepted

/-- In front of the last blanks of a line there is nothing but whitespace and complete comments
exactly if the line holds nothing else. -/
theorem triviaUpTo_iff_lineIsTrivia {rest piece : Text} (blank : FirstLineBlank rest)
    (inLine : '\n' ∉ piece) :
    TriviaUpTo rest (piece ++ rest) ↔ lineIsTrivia (piece ++ rest) = true :=
  ⟨fun trivia => trivia.lineIsTrivia blank rfl inLine,
    triviaUpTo_of_lineIsTriviaWithin blank inLine⟩

end StyleMacros.Text
