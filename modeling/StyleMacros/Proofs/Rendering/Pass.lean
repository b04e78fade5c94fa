import Mathlib.Data.List.DropRight
import StyleMacros.Proofs.Rendering.Lines
import StyleMacros.Proofs.Rendering.Reindentation
import StyleMacros.Proofs.Rendering.Walk

/-!
# One pass over a source

What a reader expects of rendering, place by place: the lines of an attribute that stands alone
are dropped, members take the place of the whitespace at the end of a body, and peers stand behind
their declaration. There are no edits in it, and no order among them.
-/

set_option autoImplicit false

namespace StyleMacros

namespace Text

/-- The text with `lead` in front of each line that is not empty. Its first line is one that
starts here if `fresh`. -/
def ledBy (lead : Text) (fresh : Bool) : Text → Text
  | [] => []
  | head :: rest =>
    if head = '\n' then head :: ledBy lead true rest
    else (if fresh then lead else []) ++ head :: ledBy lead false rest

/-- The texts, each of them behind an empty line. -/
def stackedBelow (lead : Text) (texts : List Text) : Text :=
  texts.flatMap fun text => '\n' :: '\n' :: ledBy lead true text

def lineUpTo (source : Text) (place : Nat) : Text :=
  ((source.takeBytes place).reverse.takeWhile (· ≠ '\n')).reverse

def lineFrom (source : Text) (place : Nat) : Text :=
  (source.dropBytes place).takeWhile (· ≠ '\n')

/-- Where the last character of `text` that is no whitespace ends if the text begins at `place`. -/
def solidEnd (place : Nat) (text : Text) : Nat :=
  place + size (text.rdropWhile isWhitespace)

end Text

namespace SiteExpansion

variable (site : SiteExpansion) (source unit : Text)

def added (role : FragmentRole) : List Text :=
  (site.fragments.filter fun fragment => fragment.role = role).map Fragment.text

def outerIndent : Text :=
  (source.lineUpTo site.span.start ++ source.lineFrom site.span.start).takeWhile fun char =>
    char = ' ' || char = '\t'

/-- The members, one unit deeper than the site, each behind an empty line, but for the first one in
a blank body. The closing brace gets a line of its own. -/
def memberText (body : Span) : Text :=
  let stacked := Text.stackedBelow (site.outerIndent source ++ unit) (site.added .member)
  (if (source.slice body.start body.stop).all isWhitespace then stacked.drop 1 else stacked) ++
    '\n' :: site.outerIndent source

/-- What the site puts in at a place: members at the end of its body, and peers behind its
declaration and what follows it on the line. -/
def putAt (place : Nat) : Text :=
  (match site.body with
    | some body =>
      if site.added .member ≠ [] ∧
          Text.solidEnd body.start (source.slice body.start body.stop) = place then
        site.memberText source unit body
      else []
    | none => []) ++
  match site.declaration with
  | some declaration =>
    if Text.solidEnd declaration.span.stop (source.lineFrom declaration.span.stop) = place then
      Text.stackedBelow (site.outerIndent source) (site.added .peer)
    else []
  | none => []

/-- Whether the site drops the character at a place: one with no line feed between it and a macro
attribute, its own apart, or one of the whitespace at the end of a body that gets members. -/
def drops (place : Nat) : Bool :=
  (site.macroSpans.any fun span =>
    '\n' ∉ source.slice place span.start && '\n' ∉ source.slice span.stop place) ||
  match site.body with
  | some body =>
    site.added .member ≠ [] &&
      (Text.solidEnd body.start (source.slice body.start body.stop) ≤ place && place < body.stop)
  | none => false

end SiteExpansion

namespace FileExpansion

def pass (expansion : FileExpansion) (source unit : Text) : Text :=
  Text.walk (fun place => expansion.sites.flatMap fun site => site.putAt source unit place)
    (fun place => expansion.sites.any fun site => site.drops source place) 0 source

/-- Every macro attribute stands alone on its lines, and a declaration with peers is followed on
its last line by whitespace or by one line comment. -/
structure OrdinaryLayout (expansion : FileExpansion) (source : Text) : Prop where
  alone : ∀ site ∈ expansion.sites, ∀ span ∈ site.macroSpans,
    ∀ char ∈ source.lineUpTo span.start ++ source.lineFrom span.stop, isWhitespace char = true
  followed : ∀ site ∈ expansion.sites, ∀ declaration ∈ site.declaration, site.added .peer ≠ [] →
    (source.lineFrom declaration.span.stop).dropWhile isWhitespace = [] ∨
      "//".toList <+: (source.lineFrom declaration.span.stop).dropWhile isWhitespace

end FileExpansion

/-! ## The same texts -/

/-- A fragment that is led line by line as it is from one character to the next. -/
def Fragment.Feedless (fragment : Fragment) : Prop :=
  '\r' ∉ fragment.text ∧ fragment.text.getLast? ≠ some '\n'

namespace Text

variable {text : Text} {source : Text} {offset : Nat}

theorem lines_eq_splitOn (returnless : '\r' ∉ text) (nonempty : text ≠ [])
    (feedless : text.getLast? ≠ some '\n') : lines text = splitOn '\n' text := by
  obtain ⟨front, last, pieces⟩ : ∃ front last, splitOn '\n' text = front ++ [last] :=
    ⟨_, _, splitOn_eq_append_lastPiece '\n' text⟩
  have whole : front.flatMap asLine ++ last = text := by
    rw [← join_concat_eq_flatMap, ← pieces, join_splitOn]
  have solid : last ≠ [] := by
    rintro rfl
    rw [List.append_nil] at whole
    rcases List.eq_nil_or_concat' front with rfl | ⟨others, line, rfl⟩
    · exact nonempty whole.symm
    · apply feedless
      rw [← whole, List.flatMap_append, List.flatMap_singleton, asLine, ← List.append_assoc,
        List.getLast?_concat]
  have kept : front.map withoutReturn = front := by
    refine (List.map_congr_left fun line member => ?_).trans (List.map_id front)
    refine withoutReturn_of_notMem fun inside => returnless ?_
    exact mem_of_mem_splitOn (pieces ▸ List.mem_append_left [last] member) inside
  rw [lines, pieces, List.reverse_append, List.reverse_singleton, List.singleton_append]
  simp only [solid, if_false, List.reverse_reverse, kept]

/-- Line by line a lead is put where it is put from one character to the next. -/
theorem ledBy_eq_join (lead : Text) (fresh : Bool) {first : Text} {others : List Text}
    (pieces : splitOn '\n' text = first :: others) :
    ledBy lead fresh text = join ['\n']
      ((if fresh then first.withLead lead else first) :: others.map (·.withLead lead)) := by
  induction text generalizing fresh first others with
  | nil =>
      cases pieces
      cases fresh <;> rfl
  | cons head rest inductionHypothesis =>
      obtain ⟨next, more, split⟩ := List.exists_cons_of_ne_nil (splitOn_ne_nil '\n' rest)
      rw [splitOn] at pieces
      by_cases feed : head = '\n'
      · rw [if_pos feed, split] at pieces
        cases pieces
        have empty : (if fresh then withLead [] lead else []) = [] := by cases fresh <;> rfl
        rw [ledBy, if_pos feed, inductionHypothesis true split, List.map_cons, empty, join_cons_cons,
          feed]
        rfl
      · rw [if_neg feed, split] at pieces
        cases pieces
        have front (begin : Text) : join ['\n'] ((begin ++ head :: next) :: others.map (·.withLead lead)) =
            begin ++ head :: join ['\n'] (next :: others.map (·.withLead lead)) := by
          cases others.map (·.withLead lead) with
          | nil => simp
          | cons second later => simp [join_cons_cons]
        rw [ledBy, if_neg feed, inductionHypothesis false split]
        cases fresh with
        | true => exact (front lead).symm
        | false => exact (front []).symm

theorem indentLines_eq_ledBy (returnless : '\r' ∉ text) (feedless : text.getLast? ≠ some '\n')
    (lead : Text) : text.indentLines lead = ledBy lead true text := by
  by_cases nonempty : text = []
  · subst nonempty
    rfl
  · obtain ⟨first, others, pieces⟩ := List.exists_cons_of_ne_nil (splitOn_ne_nil '\n' text)
    rw [ledBy_eq_join lead true pieces, indentLines, lines_eq_splitOn returnless nonempty feedless,
      pieces]
    rfl

theorem stackedBelow_eq_stackedFragments (lead : Text) {fragments : List Fragment}
    (nonempty : fragments ≠ []) (laid : ∀ fragment ∈ fragments, fragment.Feedless) :
    stackedBelow lead (fragments.map Fragment.text) =
      '\n' :: '\n' :: stackedFragments lead fragments := by
  induction fragments with
  | nil => exact absurd rfl nonempty
  | cons first others inductionHypothesis =>
      obtain ⟨firstLaid, othersLaid⟩ := List.forall_mem_cons.mp laid
      have led := indentLines_eq_ledBy firstLaid.1 firstLaid.2 lead
      cases others with
      | nil => simp [stackedBelow, stackedFragments, led]
      | cons second later =>
          have rest := inductionHypothesis (List.cons_ne_nil _ _) othersLaid
          have split : stackedFragments lead (first :: second :: later) =
              first.text.indentLines lead ++
                ('\n' :: '\n' :: stackedFragments lead (second :: later)) :=
            join_cons_cons ..
          rw [split, ← rest, led]
          rfl

theorem IsBoundary.lineUpTo_eq (boundary : IsBoundary source offset) :
    source.lineUpTo offset = source.lineBefore offset := by
  obtain ⟨earlier, head, rest, rfl, start, stop, clean, ends⟩ := boundary.exists_line_head
  have passes : ∀ char ∈ head.reverse, decide (char ≠ '\n') = true := fun char member =>
    decide_eq_true (clean char (List.mem_reverse.mp member))
  have stops : (earlier.reverse.takeWhile fun char => decide (char ≠ '\n')) = [] := by
    rcases ends with rfl | ⟨front, rfl⟩
    · rfl
    · simp
  rw [lineBefore, slice_append earlier head rest _ _ start stop, lineUpTo, stop, ← List.append_assoc,
    ← size_append, takeBytes_size_append, List.reverse_append, List.takeWhile_append_of_pos passes,
    stops, List.append_nil, List.reverse_reverse]

theorem IsBoundary.lineIndent_eq (boundary : IsBoundary source offset) :
    source.lineIndent offset =
      (source.lineUpTo offset ++ source.lineFrom offset).takeWhile isInlineBlank := by
  rw [boundary.lineUpTo_eq]
  obtain ⟨earlier, head, rest, rfl, start, stop, clean, -⟩ := boundary.exists_line_head
  have passes : ∀ char ∈ head, decide (char ≠ '\n') = true := fun char member =>
    decide_eq_true (clean char member)
  have behind : dropBytes offset (earlier ++ (head ++ rest)) = rest := by
    rw [stop, ← size_append, ← List.append_assoc, dropBytes_size_append]
  have solid (char : Char) : (isInlineBlank char && decide (char ≠ '\n')) = isInlineBlank char := by
    by_cases feed : char = '\n'
    · subst feed
      decide
    · simp [feed]
  rw [lineIndent, start, dropBytes_size_append, lineBefore,
    slice_append earlier head rest _ _ start stop, lineFrom, behind,
    ← List.takeWhile_append_of_pos passes, List.takeWhile_takeWhile]
  congr 1
  funext char
  rw [← solid char]
  simp

end Text

end StyleMacros
