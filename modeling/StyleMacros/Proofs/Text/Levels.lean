import StyleMacros.Proofs.Text.Nesting
import StyleMacros.Proofs.Text.Outline

/-!
# Levels of lines

Code is written line by line, each line at a level that does not depend on the unit of
indentation. Lines follow one another when the level of each is the number of braces that are
open in front of it, or one less if the line begins by closing one. From the text alone this is
seen in the blanks at the head of a line.
-/

set_option autoImplicit false

namespace StyleMacros

/-! ## Lines with their levels -/

mutual

/-- The lines of one element, each with its level, and the level behind it. -/
def CodeLine.levels (level : Nat) : CodeLine → List (Nat × Text) × Nat
  | .line text => ([(level, text)], level)
  | .blank => ([(level, [])], level)
  | .opening text => ([(level, text)], level + 1)
  | .closing text => ([(level - 1, text)], level - 1)
  | .block header body =>
    let inner := CodeLine.levelsAll (level + 1) body
    ((level, header ++ " \x7b") :: (inner.1 ++ [(inner.2 - 1, ['\x7d'])]), inner.2 - 1)

def CodeLine.levelsAll (level : Nat) : List CodeLine → List (Nat × Text) × Nat
  | [] => ([], level)
  | head :: rest =>
    let first := CodeLine.levels level head
    let others := CodeLine.levelsAll first.2 rest
    (first.1 ++ others.1, others.2)

end

def placedLine (unit : Text) (line : Nat × Text) : Text :=
  if line.2 = [] then [] else indentation unit line.1 ++ line.2

def layout (unit : Text) (lines : List (Nat × Text)) : Text :=
  Text.join ['\n'] (lines.map (placedLine unit))

section Written

variable {unit : Text}

theorem indentedLine_eq_asLine (level : Nat) (text : Text) :
    indentedLine unit level text = (placedLine unit (level, text)).asLine := by
  unfold indentedLine placedLine Text.asLine
  split
  · rfl
  · rfl

mutual

theorem CodeLine.write_eq (level : Nat) : (line : CodeLine) →
    CodeLine.write unit level line =
      (((line.levels level).1.map (placedLine unit)).flatMap Text.asLine, (line.levels level).2)
  | .line text => by simp [CodeLine.write, CodeLine.levels, indentedLine_eq_asLine]
  | .blank => rfl
  | .opening text => by simp [CodeLine.write, CodeLine.levels, indentedLine_eq_asLine]
  | .closing text => by simp [CodeLine.write, CodeLine.levels, indentedLine_eq_asLine]
  | .block header body => by
      rw [CodeLine.write, CodeLine.writeAll_eq (level + 1) body]
      simp [CodeLine.levels, indentedLine_eq_asLine]

theorem CodeLine.writeAll_eq (level : Nat) : (lines : List CodeLine) →
    CodeLine.writeAll unit level lines =
      (((CodeLine.levelsAll level lines).1.map (placedLine unit)).flatMap Text.asLine,
        (CodeLine.levelsAll level lines).2)
  | [] => rfl
  | head :: rest => by
      rw [CodeLine.writeAll, CodeLine.write_eq level head, CodeLine.writeAll_eq _ rest]
      simp [CodeLine.levelsAll]

end

theorem Text.join_concat_eq_flatMap (front : List Text) (last : Text) :
    join ['\n'] (front ++ [last]) = front.flatMap asLine ++ last := by
  induction front with
  | nil => exact join_singleton _ last
  | cons first others inductionHypothesis =>
      obtain ⟨second, rest, same⟩ := List.exists_cons_of_ne_nil
        (List.append_ne_nil_of_right_ne_nil others (List.cons_ne_nil last []))
      rw [List.cons_append, same, join_cons_cons, ← same, inductionHypothesis, List.flatMap_cons,
        asLine]
      simp only [List.append_assoc]

theorem Code.text_block_eq_layout (header : Text) (body : List CodeLine) :
    Code.text unit [.block header body] =
      layout unit (CodeLine.levels 0 (.block header body)).1 := by
  have first : placedLine unit (0, header ++ " \x7b") = header ++ " \x7b" := by
    simp [placedLine, indentation]
  have last (level : Nat) : placedLine unit (level, ['\x7d']) = indentation unit level ++ ['\x7d'] :=
    if_neg (List.cons_ne_nil _ _)
  rw [Code.text_block, CodeLine.writeAll_eq, layout, CodeLine.levels, List.map_cons,
    List.map_append, List.map_singleton, ← List.cons_append, Text.join_concat_eq_flatMap,
    List.flatMap_cons, first, last, Text.asLine]
  simp only [List.append_assoc, Nat.zero_add]

end Written

/-! ## Lines that follow one another -/

/-- The text leaves these brackets open and begins with no blank. -/
structure LineText (text : Text) (opened : List Char) : Prop where
  leaves : text.Leaves opened
  solid : text.head? ≠ some ' '

instance (text : Text) (opened : List Char) : Decidable (LineText text opened) :=
  decidable_of_iff (text.Leaves opened ∧ text.head? ≠ some ' ')
    ⟨fun both => ⟨both.1, both.2⟩, fun line => ⟨line.leaves, line.solid⟩⟩

/-- Whether a text is a line of code is seen from its marks and its first character. -/
theorem lineText_of_marks {text : Text} {opened : List Char} (leaves : Text.Leaves text.marks opened)
    (solid : text.head? ≠ some ' ') : LineText text opened :=
  ⟨Text.leaves_iff_marks.mpr leaves, solid⟩

theorem lineText_literal {chars opened : List Char} (line : LineText chars opened) :
    LineText (String.ofList chars).toList opened := by
  rwa [String.toList_ofList]

/-- Every line stands at the level of its depth, the number of braces open in front of it, or at
one less if it begins with a closing brace. It closes what it opens, braces apart. -/
inductive Follows : Nat → List (Nat × Text) → Nat → Prop
  | done (depth : Nat) : Follows depth [] depth
  | line {level depth between behind : Nat} {text : Text} {rest : List (Nat × Text)}
      (plain : ∀ char ∈ text, char ∉ ['"', '/', '\n', '\r']) (solid : text.head? ≠ some ' ')
      (run : Text.nesting (List.replicate depth '\x7d') text =
        some (List.replicate between '\x7d'))
      (placed : level + (if text.head? = some '\x7d' then 1 else 0) = depth)
      (later : Follows between rest behind) : Follows depth ((level, text) :: rest) behind

namespace Follows

variable {depth between behind : Nat} {first second lines : List (Nat × Text)}

theorem append (left : Follows depth first between) (right : Follows between second behind) :
    Follows depth (first ++ second) behind := by
  induction left with
  | done depth => exact right
  | line plain solid run placed later inductionHypothesis =>
      exact .line plain solid run placed (inductionHypothesis right)

theorem exists_split (follows : Follows depth (first ++ second) behind) :
    ∃ between, Follows depth first between ∧ Follows between second behind := by
  induction first generalizing depth with
  | nil => exact ⟨depth, .done depth, follows⟩
  | cons head rest inductionHypothesis =>
      cases follows with
      | line plain solid run placed later =>
          obtain ⟨between, front, back⟩ := inductionHypothesis later
          exact ⟨between, .line plain solid run placed front, back⟩

end Follows

namespace CodeLine

def Keeps (code : List CodeLine) : Prop :=
  ∀ level, (levelsAll level code).2 = level ∧ Follows level (levelsAll level code).1 level

theorem levelsAll_append (level : Nat) (first second : List CodeLine) :
    levelsAll level (first ++ second) =
      ((levelsAll level first).1 ++ (levelsAll (levelsAll level first).2 second).1,
        (levelsAll (levelsAll level first).2 second).2) := by
  induction first generalizing level with
  | nil => rfl
  | cons head rest inductionHypothesis =>
      rw [List.cons_append, levelsAll, levelsAll, inductionHypothesis]
      simp only [List.append_assoc]

theorem keeps_nil : Keeps [] :=
  fun level => ⟨rfl, .done level⟩

theorem Keeps.append {first second : List CodeLine} (left : Keeps first) (right : Keeps second) :
    Keeps (first ++ second) := by
  intro level
  obtain ⟨same, front⟩ := left level
  obtain ⟨kept, back⟩ := right level
  rw [levelsAll_append, same]
  exact ⟨kept, front.append back⟩

theorem Keeps.cons {head : CodeLine} {rest : List CodeLine} (first : Keeps [head])
    (others : Keeps rest) : Keeps (head :: rest) :=
  first.append others

theorem keeps_map {Item : Type} {items : List Item} {write : Item → CodeLine}
    (each : ∀ item ∈ items, Keeps [write item]) : Keeps (items.map write) := by
  induction items with
  | nil => exact keeps_nil
  | cons first others inductionHypothesis =>
      exact .cons (each first List.mem_cons_self)
        (inductionHypothesis fun item member => each item (List.mem_cons_of_mem first member))

/-- A text that nests begins with no closing brace, so it stands at the level of its depth. -/
theorem follows_of_lineText {text : Text} (opened : Nat)
    (line : LineText text (List.replicate opened '\x7d')) (level : Nat) :
    Follows level [(level, text)] (level + opened) := by
  have opens : text.head? ≠ some '\x7d' := by
    intro begins
    obtain ⟨rest, rfl⟩ := List.head?_eq_some_iff.mp begins
    cases line.leaves.nesting
  have run := Text.nesting_append_stack (List.replicate level '\x7d') line.leaves.nesting
  rw [List.nil_append, List.replicate_append_replicate, Nat.add_comm] at run
  exact .line line.leaves.plain line.solid run (by rw [if_neg opens, Nat.add_zero]) (.done _)

theorem follows_closing (level : Nat) : Follows (level + 1) [(level, ['\x7d'])] level :=
  .line (by decide) (by decide) rfl rfl (.done level)

theorem keeps_line {text : Text} (line : LineText text []) : Keeps [.line text] :=
  fun level => ⟨rfl, follows_of_lineText 0 line level⟩

theorem keeps_blank : Keeps [.blank] :=
  fun level => ⟨rfl, follows_of_lineText 0 (by decide) level⟩

/-- A header that opens a brace, a body, and the brace that closes it. -/
theorem keeps_block {header : Text} {body : List CodeLine}
    (line : LineText (header ++ " \x7b") ['\x7d']) (inside : Keeps body) :
    Keeps [.block header body] := by
  intro level
  obtain ⟨same, inner⟩ := inside (level + 1)
  have whole := (follows_of_lineText 1 line level).append
    (inner.append (follows_closing level))
  rw [levelsAll, levelsAll, levels, same, Nat.add_sub_cancel, List.append_nil]
  exact ⟨rfl, whole⟩

theorem keeps_opening {text : Text} {body : List CodeLine} (line : LineText text ['\x7d'])
    (inside : Keeps body) : Keeps (.opening text :: (body ++ [.closing ['\x7d']])) := by
  intro level
  obtain ⟨same, inner⟩ := inside (level + 1)
  have whole := (follows_of_lineText 1 line level).append
    (inner.append (follows_closing level))
  rw [levelsAll, levels, levelsAll_append, same]
  exact ⟨rfl, whole⟩

end CodeLine

/-! ## The text of the lines -/

namespace Text

theorem nesting_line_feed (stack : List Char) (text : Text) :
    nesting stack ('\n' :: text) = nesting stack text :=
  nesting_cons stack '\n' text

theorem nesting_join (stack : List Char) (pieces : List Text) :
    nesting stack (join ['\n'] pieces) = nesting stack pieces.flatten := by
  induction pieces generalizing stack with
  | nil => rfl
  | cons first others inductionHypothesis =>
      cases others with
      | nil => rw [join_singleton, List.flatten_singleton]
      | cons second others =>
          rw [join_cons_cons, List.flatten_cons, nesting_append, nesting_append,
            List.singleton_append]
          congr 1
          funext between
          rw [nesting_line_feed, inductionHypothesis]

theorem nesting_spaces {blanks : Text} (spaces : ∀ char ∈ blanks, char = ' ')
    (stack : List Char) : nesting stack blanks = some stack := by
  induction blanks with
  | nil => rfl
  | cons head rest inductionHypothesis =>
      obtain ⟨rfl, others⟩ := List.forall_mem_cons.mp spaces
      exact (nesting_cons stack ' ' rest).trans (inductionHypothesis others)

def leadingSpaces (line : Text) : Nat :=
  (line.takeWhile fun char => char = ' ').length

def withoutLeadingSpaces (line : Text) : Text :=
  line.dropWhile fun char => char = ' '

/-- Every line that is not empty begins with `width` blanks for each brace that is open in front
of it, but for one that it closes at its head. -/
def IndentedByDepth (width : Nat) (text : Text) : Prop :=
  ∀ (front : List Text) (line : Text) (back : List Text),
    splitOn '\n' text = front ++ line :: back → line ≠ [] →
      ∃ depth, line.leadingSpaces = width * depth ∧
        front.flatten.count '\x7b' = front.flatten.count '\x7d' + depth +
          (if line.withoutLeadingSpaces.head? = some '\x7d' then 1 else 0)

def unindented (text : Text) : Text :=
  join ['\n'] ((splitOn '\n' text).map withoutLeadingSpaces)

theorem leadingSpaces_append {blanks text : Text} (spaces : ∀ char ∈ blanks, char = ' ')
    (solid : text.head? ≠ some ' ') : leadingSpaces (blanks ++ text) = blanks.length ∧
      withoutLeadingSpaces (blanks ++ text) = text := by
  have passes : ∀ char ∈ blanks, decide (char = ' ') = true := fun char member =>
    decide_eq_true (spaces char member)
  have stops : (text.takeWhile fun char => decide (char = ' ')) = [] ∧
      (text.dropWhile fun char => decide (char = ' ')) = text := by
    cases text with
    | nil => exact ⟨rfl, rfl⟩
    | cons head rest =>
        have other : head ≠ ' ' := fun same => solid (same ▸ rfl)
        simp [other]
  constructor
  · rw [leadingSpaces, List.takeWhile_append_of_pos passes, stops.1, List.append_nil]
  · rw [withoutLeadingSpaces, List.dropWhile_append_of_pos passes, stops.2]

end Text

section Layout

variable {unit : Text} {depth behind : Nat} {lines : List (Nat × Text)}

theorem placedLine_eq_append (spaces : ∀ char ∈ unit, char = ' ') (line : Nat × Text) :
    ∃ blanks, (∀ char ∈ blanks, char = ' ') ∧ placedLine unit line = blanks ++ line.2 := by
  unfold placedLine
  split
  · rename_i empty
    exact ⟨[], by simp, empty.symm⟩
  · exact ⟨_, eq_of_mem_indentation spaces line.1, rfl⟩

theorem Follows.forall_mem (follows : Follows depth lines behind) : ∀ line ∈ lines,
    (∀ char ∈ line.2, char ∉ ['"', '/', '\n', '\r']) ∧ line.2.head? ≠ some ' ' := by
  induction follows with
  | done depth => simp
  | line plain solid run placed later inductionHypothesis =>
      exact List.forall_mem_cons.mpr ⟨⟨plain, solid⟩, inductionHypothesis⟩

theorem Follows.nesting_flatten (spaces : ∀ char ∈ unit, char = ' ')
    (follows : Follows depth lines behind) :
    Text.nesting (List.replicate depth '\x7d') (lines.map (placedLine unit)).flatten =
      some (List.replicate behind '\x7d') := by
  induction follows with
  | done depth => rfl
  | @line level depth between behind text rest plain solid run placed later inductionHypothesis =>
      obtain ⟨blanks, blank, exact⟩ := placedLine_eq_append spaces (level, text)
      rw [List.map_cons, List.flatten_cons, exact, Text.nesting_append, Text.nesting_append,
        Text.nesting_spaces blank, Option.bind_some, run, Option.bind_some]
      exact inductionHypothesis

theorem Follows.plain_of_mem_layout (spaces : ∀ char ∈ unit, char = ' ')
    (follows : Follows depth lines behind) : ∀ line ∈ lines.map (placedLine unit),
      ∀ char ∈ line, char ∉ ['"', '/', '\n', '\r'] := by
  intro line member
  obtain ⟨placed, placedMember, rfl⟩ := List.mem_map.mp member
  obtain ⟨blanks, blank, exact⟩ := placedLine_eq_append spaces placed
  rw [exact]
  intro char inside
  rcases List.mem_append.mp inside with inside | inside
  · rw [blank char inside]
    decide
  · exact (follows.forall_mem placed placedMember).1 char inside

variable (spaces : ∀ char ∈ unit, char = ' ') (follows : Follows depth lines behind)
  (nonempty : lines ≠ [])

include spaces follows nonempty in
theorem Follows.splitOn_layout :
    Text.splitOn '\n' (layout unit lines) = lines.map (placedLine unit) := by
  obtain ⟨first, others, same⟩ := List.exists_cons_of_ne_nil
    (List.map_eq_nil_iff.not.mpr nonempty : lines.map (placedLine unit) ≠ [])
  have plain := follows.plain_of_mem_layout spaces
  rw [layout, same]
  rw [same] at plain
  exact Text.splitOn_join_of_plain fun piece member feed => plain piece member '\n' feed (by decide)

include spaces follows nonempty in
theorem Follows.unindented_layout :
    (layout unit lines).unindented = Text.join ['\n'] (lines.map Prod.snd) := by
  rw [Text.unindented, follows.splitOn_layout spaces nonempty, List.map_map]
  congr 1
  refine List.map_congr_left fun line member => ?_
  obtain ⟨blanks, blank, exact⟩ := placedLine_eq_append spaces line
  rw [Function.comp_apply, exact]
  exact (Text.leadingSpaces_append blank (follows.forall_mem line member).2).2

end Layout

section Whole

variable {lines : List (Nat × Text)} (follows : Follows 0 lines 0)

include follows in
theorem Follows.nested {unit : Text} (spaces : ∀ char ∈ unit, char = ' ') :
    (layout unit lines).Nested := by
  rw [Text.Nested, layout, Text.nesting_join]
  exact follows.nesting_flatten spaces

theorem length_indentation (width level : Nat) :
    (indentation (indentUnit width) level).length = width * level := by
  rw [indentation, List.length_flatten, List.map_replicate, List.sum_replicate_nat, indentUnit,
    List.length_replicate, Nat.mul_comm]

include follows in
theorem Follows.indentedByDepth (nonempty : lines ≠ []) (width : Nat) :
    (layout (indentUnit width) lines).IndentedByDepth width := by
  intro front line back split solid
  have spaces := indentUnit_spaces width
  rw [follows.splitOn_layout spaces nonempty] at split
  obtain ⟨first, second, rfl, rfl, rest⟩ := List.map_eq_append_iff.mp split
  obtain ⟨⟨level, text⟩, others, rfl, rfl, -⟩ := List.map_eq_cons_iff.mp rest
  obtain ⟨between, earlier, later⟩ := follows.exists_split
  cases later with
  | line plain tight run placed behind =>
      have written : placedLine (indentUnit width) (level, text) =
          indentation (indentUnit width) level ++ text := by
        refine if_neg fun empty => solid ?_
        rw [placedLine, if_pos empty]
      obtain ⟨blanks, bare⟩ :=
        Text.leadingSpaces_append (eq_of_mem_indentation spaces level) tight
      -- the braces open in front of the line are those that its depth counts
      have counts := Text.count_of_nesting (rfl : closingOf? '\x7b' = some '\x7d')
        (earlier.nesting_flatten spaces)
      rw [List.count_replicate_self, List.count_replicate_self, Nat.zero_add] at counts
      rw [written, bare, blanks, length_indentation]
      refine ⟨level, rfl, ?_⟩
      rw [counts]
      omega

end Whole

/-! ## Other indentation -/

namespace Text

section Filter

variable {keeps : Char → Bool} (feed : keeps '\n' = false) (return_ : keeps '\r' = false)

include feed in
theorem filter_join (pieces : List Text) :
    (join ['\n'] pieces).filter keeps = pieces.flatten.filter keeps := by
  induction pieces with
  | nil => rfl
  | cons first others inductionHypothesis =>
      cases others with
      | nil => rw [join_singleton, List.flatten_singleton]
      | cons second others =>
          rw [join_cons_cons, List.flatten_cons, List.filter_append, List.filter_append,
            List.filter_append, inductionHypothesis,
            List.filter_cons_of_neg (by simp [feed]), List.filter_nil, List.nil_append]

include return_ in
theorem filter_withoutReturn (line : Text) : (withoutReturn line).filter keeps = line.filter keeps := by
  unfold withoutReturn
  split
  · rename_i ends
    obtain ⟨front, rfl⟩ : ['\r'] <:+ line := by simpa [endsWith] using ends
    rw [List.dropLast_concat, List.filter_append, List.filter_cons_of_neg (by simp [return_]),
      List.filter_nil, List.append_nil]
  · rfl

include return_ in
theorem filter_flatten_withoutReturn (pieces : List Text) :
    (pieces.map withoutReturn).flatten.filter keeps = pieces.flatten.filter keeps := by
  induction pieces with
  | nil => rfl
  | cons first others inductionHypothesis =>
      rw [List.map_cons, List.flatten_cons, List.flatten_cons, List.filter_append,
        List.filter_append, filter_withoutReturn return_, inductionHypothesis]

include feed return_ in
theorem filter_lines (text : Text) : (lines text).flatten.filter keeps = text.filter keeps := by
  have pieces : text.filter keeps = (splitOn '\n' text).flatten.filter keeps := by
    rw [← filter_join feed, join_splitOn]
  rw [pieces, lines]
  split
  · rename_i empty
    exact absurd (List.reverse_eq_nil_iff.mp empty) (splitOn_ne_nil '\n' text)
  · rename_i last earlier reversed
    have split : splitOn '\n' text = earlier.reverse ++ [last] := by
      rw [← List.reverse_reverse (splitOn '\n' text), reversed, List.reverse_cons]
    rw [split, List.flatten_append, List.flatten_singleton, List.filter_append,
      ← filter_flatten_withoutReturn return_ earlier.reverse]
    simp only
    split
    · rename_i empty
      rw [empty, List.filter_nil, List.append_nil]
    · rw [List.flatten_append, List.flatten_singleton, List.filter_append]

include feed return_ in
theorem filter_indentLines {lead : Text} (none : lead.filter keeps = []) (text : Text) :
    (text.indentLines lead).filter keeps = text.filter keeps := by
  rw [indentLines, filter_join feed, ← filter_lines feed return_ text]
  induction lines text with
  | nil => rfl
  | cons first others inductionHypothesis =>
      rw [List.map_cons, List.flatten_cons, List.flatten_cons, List.filter_append,
        List.filter_append, inductionHypothesis]
      congr 1
      split
      · rename_i empty
        rw [empty]
      · rw [List.filter_append, none, List.nil_append]

end Filter

end Text

end StyleMacros
