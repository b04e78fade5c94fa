import StyleMacros.Code.Layout
import StyleMacros.Proofs.Text.Marks

/-!
# Outlines

The outline of a text is its lines without their indentation, each with the number of braces that
are open in front of it. It is taken from the characters alone, so generated code can be read
back from its outline whatever the unit of indentation is.
-/

set_option autoImplicit false

namespace StyleMacros

/-- The outline of lines in front of which `depth` braces are open. -/
def outlineFrom : Nat → List Text → List (Nat × Text)
  | _, [] => []
  | depth, line :: rest =>
    (depth, line.trimStart) ::
      outlineFrom (depth + line.count '\x7b' - line.count '\x7d') rest

def Text.outline (text : Text) : List (Nat × Text) :=
  outlineFrom 0 text.lines

/-! ## Lines that are put together -/

namespace Text

theorem withoutReturn_of_notMem {line : Text} (none : '\r' ∉ line) : withoutReturn line = line := by
  unfold withoutReturn
  split
  · rename_i ends
    have suffix : ['\r'] <:+ line := by simpa [endsWith] using ends
    exact absurd (suffix.subset List.mem_cons_self) none
  · rfl

def InLine (text : Text) : Prop :=
  '\n' ∉ text ∧ '\r' ∉ text

@[simp] theorem inLine_append {left right : Text} :
    InLine (left ++ right) ↔ left.InLine ∧ right.InLine := by
  simp only [InLine, List.mem_append, not_or]
  exact and_and_and_comm

instance (text : Text) : Decidable text.InLine :=
  inferInstanceAs (Decidable (_ ∧ _))

theorem splitOn_flatMap_asLine {written : List Text} (each : ∀ line ∈ written, line.InLine)
    {last : Text} (single : last.InLine) :
    splitOn '\n' (written.flatMap asLine ++ last) = written ++ [last] := by
  induction written with
  | nil => exact splitOn_of_notMem single.1
  | cons first others inductionHypothesis =>
      have split : (first :: others).flatMap asLine ++ last =
          first ++ '\n' :: (others.flatMap asLine ++ last) := by
        simp [asLine]
      rw [split, splitOn_append_cons (each first List.mem_cons_self).1,
        inductionHypothesis fun line member => each line (List.mem_cons_of_mem first member)]
      rfl

theorem lines_flatMap_asLine {written : List Text} (each : ∀ line ∈ written, line.InLine)
    {last : Text} (single : last.InLine) (nonempty : last ≠ []) :
    lines (written.flatMap asLine ++ last) = written ++ [last] := by
  have closed : written.map withoutReturn = written := by
    rw [List.map_congr_left fun line member => withoutReturn_of_notMem (each line member).2]
    exact List.map_id written
  rw [lines, splitOn_flatMap_asLine each single, List.reverse_append, List.reverse_singleton,
    List.singleton_append]
  simp only [nonempty, if_false, List.reverse_reverse, closed]

end Text

/-! ## Texts that are laid out -/

/-- The text consists of whole lines with the given outline, and changes the number of open
braces from `depth` to `behind`. -/
def LaysOut (text : Text) (depth behind : Nat) (outline : List (Nat × Text)) : Prop :=
  ∃ written : List Text, text = written.flatMap Text.asLine ∧ (∀ line ∈ written, line.InLine) ∧
    ∀ more, outlineFrom depth (written ++ more) = outline ++ outlineFrom behind more

namespace LaysOut

theorem nil (depth : Nat) : LaysOut [] depth depth [] :=
  ⟨[], rfl, by simp, fun _ => rfl⟩

theorem append {first second : Text} {depth between behind : Nat}
    {firstOutline secondOutline : List (Nat × Text)}
    (left : LaysOut first depth between firstOutline)
    (right : LaysOut second between behind secondOutline) :
    LaysOut (first ++ second) depth behind (firstOutline ++ secondOutline) := by
  obtain ⟨firstLines, rfl, firstEach, firstReads⟩ := left
  obtain ⟨secondLines, rfl, secondEach, secondReads⟩ := right
  refine ⟨firstLines ++ secondLines, (List.flatMap_append).symm, ?_, ?_⟩
  · intro line member
    exact (List.mem_append.mp member).elim (firstEach line) (secondEach line)
  · intro more
    rw [List.append_assoc, firstReads, secondReads, List.append_assoc]

end LaysOut

theorem indentUnit_spaces (width : Nat) : ∀ char ∈ indentUnit width, char = ' ' :=
  fun _ member => List.eq_of_mem_replicate member

section Layout

variable {unit : Text} (blank : ∀ char ∈ unit, char = ' ')

include blank in
theorem eq_of_mem_indentation (level : Nat) : ∀ char ∈ indentation unit level, char = ' ' := by
  intro char member
  obtain ⟨piece, pieceMember, inside⟩ := List.mem_flatten.mp member
  rw [List.eq_of_mem_replicate pieceMember] at inside
  exact blank char inside

include blank in
theorem trimStart_indentation_append (level : Nat) (text : Text) :
    (indentation unit level ++ text).trimStart = text.trimStart := by
  apply List.dropWhile_append_of_pos
  intro char member
  rw [eq_of_mem_indentation blank level char member]
  decide

include blank in
theorem inLine_indentation_append (level : Nat) {text : Text} (inLine : text.InLine) :
    Text.InLine (indentation unit level ++ text) := by
  have absent {char : Char} (other : char ≠ ' ') : char ∉ indentation unit level := fun member =>
    other (eq_of_mem_indentation blank level char member)
  exact Text.inLine_append.mpr ⟨⟨absent (by decide), absent (by decide)⟩, inLine⟩

include blank in
/-- A line that begins with no blank is one line of the outline, however far it is indented. -/
theorem laysOut_indentedLine {text : Text} (inLine : text.InLine) (solid : text.trimStart = text)
    (level depth : Nat) :
    LaysOut (indentedLine unit level text) depth
      (depth + text.count '\x7b' - text.count '\x7d') [(depth, text)] := by
  by_cases empty : text = []
  · subst empty
    exact ⟨[[]], rfl, by simp [Text.InLine], fun _ => rfl⟩
  · have absent {char : Char} (other : char ≠ ' ') : char ∉ indentation unit level := fun member =>
      other (eq_of_mem_indentation blank level char member)
    refine ⟨[indentation unit level ++ text], ?_, ?_, ?_⟩
    · simp [indentedLine, empty, Text.asLine]
    · exact List.forall_mem_singleton.mpr (inLine_indentation_append blank level inLine)
    · intro more
      simp only [List.singleton_append, outlineFrom, trimStart_indentation_append blank, solid,
        List.count_append, List.count_eq_zero.mpr (absent (by decide : '\x7b' ≠ ' ')),
        List.count_eq_zero.mpr (absent (by decide : '\x7d' ≠ ' ')), Nat.zero_add]

end Layout

/-! ## The outline of code -/

def Text.Quiet (text : Text) : Prop :=
  ∀ char ∈ text, char ∉ ['\n', '\r', '\x7b', '\x7d']

instance (text : Text) : Decidable text.Quiet :=
  inferInstanceAs (Decidable (∀ char ∈ text, char ∉ ['\n', '\r', '\x7b', '\x7d']))

namespace Text

@[simp] theorem quiet_append {left right : Text} :
    Quiet (left ++ right) ↔ left.Quiet ∧ right.Quiet := by
  simp only [Quiet, List.mem_append, or_imp, forall_and]

theorem Quiet.inLine {text : Text} (quiet : text.Quiet) : text.InLine :=
  ⟨fun member => quiet _ member (by decide), fun member => quiet _ member (by decide)⟩

theorem Quiet.count {text : Text} (quiet : text.Quiet) :
    text.count '\x7b' = 0 ∧ text.count '\x7d' = 0 :=
  ⟨List.count_eq_zero.mpr fun member => quiet _ member (by decide),
    List.count_eq_zero.mpr fun member => quiet _ member (by decide)⟩

end Text

/-- The text is one line without braces that begins with no blank. -/
structure TidyLine (text : Text) : Prop where
  quiet : text.Quiet
  solid : text.trimStart = text

mutual

/-- The lines of the code are tidy, and only its blocks open and close braces. -/
def CodeLine.Tidy : CodeLine → Prop
  | .line text => TidyLine text
  | .blank => True
  | .opening _ => False
  | .closing _ => False
  | .block header body => (TidyLine header ∧ header ≠ []) ∧ CodeLine.AllTidy body

def CodeLine.AllTidy : List CodeLine → Prop
  | [] => True
  | head :: rest => head.Tidy ∧ CodeLine.AllTidy rest

end

mutual

def CodeLine.outline (depth : Nat) : CodeLine → List (Nat × Text)
  | .line text => [(depth, text)]
  | .blank => [(depth, [])]
  | .opening text => [(depth, text)]
  | .closing text => [(depth, text)]
  | .block header body =>
    (depth, header ++ " \x7b") :: (CodeLine.outlineAll (depth + 1) body ++ [(depth + 1, ['\x7d'])])

def CodeLine.outlineAll (depth : Nat) : List CodeLine → List (Nat × Text)
  | [] => []
  | head :: rest => CodeLine.outline depth head ++ CodeLine.outlineAll depth rest

end

theorem CodeLine.allTidy_iff {lines : List CodeLine} :
    CodeLine.AllTidy lines ↔ ∀ line ∈ lines, line.Tidy := by
  induction lines with
  | nil => simp [CodeLine.AllTidy]
  | cons head rest inductionHypothesis => simp [CodeLine.AllTidy, inductionHypothesis]

theorem CodeLine.outlineAll_eq_flatMap (depth : Nat) (lines : List CodeLine) :
    CodeLine.outlineAll depth lines = lines.flatMap (CodeLine.outline depth) := by
  induction lines with
  | nil => rfl
  | cons head rest inductionHypothesis =>
      rw [CodeLine.outlineAll, inductionHypothesis, List.flatMap_cons]

theorem TidyLine.solid_append {header : Text} (tidy : TidyLine header) (nonempty : header ≠ [])
    (more : Text) : (header ++ more).trimStart = header ++ more := by
  cases header with
  | nil => exact absurd rfl nonempty
  | cons head rest =>
      have solid : isWhitespace head = false := by
        by_contra blank
        have shorter := congrArg List.length tidy.solid
        have length := (List.dropWhile_sublist isWhitespace (l := rest)).length_le
        rw [Text.trimStart, List.dropWhile_cons_of_pos (by simpa using blank),
          List.length_cons] at shorter
        omega
      simp [Text.trimStart, solid]

section Code

variable {unit : Text}

theorem laysOut_opening (spaces : ∀ char ∈ unit, char = ' ') {header : Text}
    (tidy : TidyLine header) (nonempty : header ≠ []) (level depth : Nat) :
    LaysOut (indentedLine unit level (header ++ " \x7b")) depth (depth + 1)
      [(depth, header ++ " \x7b")] := by
  have inLine : Text.InLine (header ++ " \x7b") :=
    Text.inLine_append.mpr ⟨tidy.quiet.inLine, by decide⟩
  have opens : List.count '\x7b' (header ++ " \x7b".toList) = 1 := by
    rw [List.count_append, tidy.quiet.count.1]
    rfl
  have closes : List.count '\x7d' (header ++ " \x7b".toList) = 0 := by
    rw [List.count_append, tidy.quiet.count.2]
    rfl
  have laid := laysOut_indentedLine spaces inLine (tidy.solid_append nonempty _) level depth
  rwa [opens, closes, Nat.sub_zero] at laid

theorem laysOut_closing (spaces : ∀ char ∈ unit, char = ' ') (level depth : Nat) :
    LaysOut (indentedLine unit level ['\x7d']) (depth + 1) depth [(depth + 1, ['\x7d'])] :=
  laysOut_indentedLine spaces ⟨by decide, by decide⟩ rfl level (depth + 1)

mutual

/-- Writing an element lays out its outline and leaves the level as it was. -/
theorem CodeLine.laysOut_write (spaces : ∀ char ∈ unit, char = ' ') (level depth : Nat) :
    (line : CodeLine) → line.Tidy →
      (CodeLine.write unit level line).2 = level ∧
        LaysOut (CodeLine.write unit level line).1 depth depth (line.outline depth)
  | .line text, tidy => by
      have laid := laysOut_indentedLine spaces tidy.quiet.inLine tidy.solid level depth
      rw [tidy.quiet.count.1, tidy.quiet.count.2] at laid
      exact ⟨rfl, laid⟩
  | .blank, _ => ⟨rfl, [[]], rfl, by simp [Text.InLine], fun _ => rfl⟩
  | .opening _, tidy => tidy.elim
  | .closing _, tidy => tidy.elim
  | .block header body, tidy => by
      obtain ⟨⟨headerTidy, nonempty⟩, bodyTidy⟩ := tidy
      obtain ⟨same, inner⟩ := CodeLine.laysOut_writeAll spaces (level + 1) (depth + 1) body bodyTidy
      have whole := ((laysOut_opening spaces headerTidy nonempty level depth).append inner).append
        (laysOut_closing spaces level depth)
      rw [CodeLine.write, same, Nat.add_sub_cancel]
      refine ⟨rfl, ?_⟩
      simpa [CodeLine.outline] using whole

theorem CodeLine.laysOut_writeAll (spaces : ∀ char ∈ unit, char = ' ') (level depth : Nat) :
    (lines : List CodeLine) → CodeLine.AllTidy lines →
      (CodeLine.writeAll unit level lines).2 = level ∧
        LaysOut (CodeLine.writeAll unit level lines).1 depth depth
          (CodeLine.outlineAll depth lines)
  | [], _ => ⟨rfl, .nil depth⟩
  | head :: rest, tidy => by
      obtain ⟨headSame, headLaid⟩ := CodeLine.laysOut_write spaces level depth head tidy.1
      obtain ⟨restSame, restLaid⟩ := CodeLine.laysOut_writeAll spaces level depth rest tidy.2
      rw [CodeLine.writeAll, headSame]
      exact ⟨restSame, headLaid.append restLaid⟩

end

theorem withoutFinalBreaks_append_feed {front : Text} {last : Char} (solid : last ≠ '\n') :
    withoutFinalBreaks (front ++ [last] ++ ['\n']) = front ++ [last] := by
  simp [withoutFinalBreaks, solid]

theorem Code.text_block (header : Text) (body : List CodeLine) :
    Code.text unit [.block header body] =
      header ++ " \x7b" ++ ['\n'] ++ (CodeLine.writeAll unit 1 body).1 ++
        indentation unit ((CodeLine.writeAll unit 1 body).2 - 1) ++ ['\x7d'] := by
  have written : (CodeLine.writeAll unit 0 [.block header body]).1 =
      header ++ " \x7b" ++ ['\n'] ++ (CodeLine.writeAll unit 1 body).1 ++
        indentation unit ((CodeLine.writeAll unit 1 body).2 - 1) ++ ['\x7d'] ++ ['\n'] := by
    simp [CodeLine.writeAll, CodeLine.write, indentedLine, indentation]
  rw [Code.text, Code.textAt, written]
  exact withoutFinalBreaks_append_feed (by decide)

theorem Code.outline_block (spaces : ∀ char ∈ unit, char = ' ') {header : Text}
    {body : List CodeLine} (tidy : (CodeLine.block header body).Tidy) :
    (Code.text unit [.block header body]).outline = CodeLine.outline 0 (.block header body) := by
  obtain ⟨⟨headerTidy, nonempty⟩, bodyTidy⟩ := tidy
  obtain ⟨same, inner⟩ := CodeLine.laysOut_writeAll spaces 1 1 body bodyTidy
  obtain ⟨written, exact, each, reads⟩ :=
    (laysOut_opening spaces headerTidy nonempty 0 0).append inner
  have split : Code.text unit [.block header body] =
      written.flatMap Text.asLine ++ ['\x7d'] := by
    rw [← exact, Code.text_block header body, same]
    simp [indentedLine, indentation]
  rw [Text.outline, split, Text.lines_flatMap_asLine each ⟨by decide, by decide⟩ (by simp), reads]
  rfl

theorem Code.outlineFrom_inside (spaces : ∀ char ∈ unit, char = ' ') (header : Text)
    {body : List CodeLine} (tidy : CodeLine.AllTidy body) :
    ∃ inside, Code.text unit [.block header body] = header ++ " \x7b" ++ inside ∧
      outlineFrom 1 inside.lines =
        (1, []) :: (CodeLine.outlineAll 1 body ++ [(1, ['\x7d'])]) := by
  obtain ⟨same, written, exact, each, reads⟩ := CodeLine.laysOut_writeAll spaces 1 1 body tidy
  refine ⟨([] :: written).flatMap Text.asLine ++ ['\x7d'], ?_, ?_⟩
  · rw [Code.text_block header body, exact, same]
    simp [indentation, Text.asLine]
  · rw [Text.lines_flatMap_asLine _ ⟨by decide, by decide⟩ (by simp)]
    · exact congrArg _ (reads [['\x7d']])
    · exact List.forall_mem_cons.mpr ⟨⟨by decide, by decide⟩, each⟩

end Code

theorem Text.lines_of_inLine {text : Text} (inLine : text.InLine) (nonempty : text ≠ []) :
    text.lines = [text] := by
  have single : Text.lines ([].flatMap Text.asLine ++ text) = [] ++ [text] :=
    Text.lines_flatMap_asLine (by simp) inLine nonempty
  rwa [List.flatMap_nil, List.nil_append, List.nil_append] at single

theorem Text.outline_of_inLine {text : Text} (inLine : text.InLine) (nonempty : text ≠ []) :
    text.outline = [(0, text.trimStart)] := by
  rw [Text.outline, Text.lines_of_inLine inLine nonempty]
  rfl

/-! ## The lines of code -/

mutual

def CodeLine.lines : CodeLine → List Text
  | .line text => [text]
  | .blank => [[]]
  | .opening text => [text]
  | .closing text => [text]
  | .block header body => (header ++ " \x7b") :: (CodeLine.linesAll body ++ [['\x7d']])

def CodeLine.linesAll : List CodeLine → List Text
  | [] => []
  | head :: rest => CodeLine.lines head ++ CodeLine.linesAll rest

end

theorem CodeLine.linesAll_eq_flatMap (lines : List CodeLine) :
    CodeLine.linesAll lines = lines.flatMap CodeLine.lines := by
  induction lines with
  | nil => rfl
  | cons head rest inductionHypothesis =>
      rw [CodeLine.linesAll, inductionHypothesis, List.flatMap_cons]

/-- The text consists of whole lines, which are the given ones but for the blanks in front. -/
def WritesLines (text : Text) (lines : List Text) : Prop :=
  ∃ written : List Text, text = written.flatMap Text.asLine ∧ (∀ line ∈ written, line.InLine) ∧
    written.map Text.trimStart = lines.map Text.trimStart

theorem WritesLines.append {first second : Text} {firstLines secondLines : List Text}
    (left : WritesLines first firstLines) (right : WritesLines second secondLines) :
    WritesLines (first ++ second) (firstLines ++ secondLines) := by
  obtain ⟨before, rfl, beforeEach, beforeReads⟩ := left
  obtain ⟨after, rfl, afterEach, afterReads⟩ := right
  refine ⟨before ++ after, List.flatMap_append.symm, ?_, ?_⟩
  · exact List.forall_mem_append.mpr ⟨beforeEach, afterEach⟩
  · rw [List.map_append, List.map_append, beforeReads, afterReads]

section Lines

variable {unit : Text} (blank : ∀ char ∈ unit, char = ' ')

include blank in
theorem writesLines_indentedLine (level : Nat) {text : Text} (inLine : text.InLine) :
    WritesLines (indentedLine unit level text) [text] := by
  unfold indentedLine
  split
  · rename_i empty
    exact ⟨[[]], rfl, by simp [Text.InLine], by rw [empty]⟩
  · refine ⟨[indentation unit level ++ text], by simp [Text.asLine], ?_, ?_⟩
    · exact List.forall_mem_singleton.mpr (inLine_indentation_append blank level inLine)
    · rw [List.map_singleton, trimStart_indentation_append blank, List.map_singleton]

mutual

theorem CodeLine.writesLines_write (blank : ∀ char ∈ unit, char = ' ') (level : Nat) :
    (line : CodeLine) → (∀ text ∈ line.lines, text.InLine) →
      WritesLines (CodeLine.write unit level line).1 line.lines
  | .line text, each => writesLines_indentedLine blank level (each text List.mem_cons_self)
  | .blank, _ => ⟨[[]], rfl, by simp [Text.InLine], rfl⟩
  | .opening text, each => writesLines_indentedLine blank level (each text List.mem_cons_self)
  | .closing text, each =>
      writesLines_indentedLine blank (level - 1) (each text List.mem_cons_self)
  | .block header body, each => by
      obtain ⟨headerInLine, rest⟩ := List.forall_mem_cons.mp each
      have inner := CodeLine.writesLines_writeAll blank (level + 1) body
        (List.forall_mem_append.mp rest).1
      have whole := ((writesLines_indentedLine blank level headerInLine).append inner).append
        (writesLines_indentedLine blank ((CodeLine.writeAll unit (level + 1) body).2 - 1)
          (⟨by decide, by decide⟩ : Text.InLine ['\x7d']))
      rw [CodeLine.write, CodeLine.lines]
      simpa using whole

theorem CodeLine.writesLines_writeAll (blank : ∀ char ∈ unit, char = ' ') (level : Nat) :
    (lines : List CodeLine) → (∀ text ∈ CodeLine.linesAll lines, text.InLine) →
      WritesLines (CodeLine.writeAll unit level lines).1 (CodeLine.linesAll lines)
  | [], _ => ⟨[], rfl, by simp, rfl⟩
  | head :: rest, each => by
      obtain ⟨first, others⟩ := List.forall_mem_append.mp each
      rw [CodeLine.writeAll, CodeLine.linesAll]
      exact (CodeLine.writesLines_write blank level head first).append
        (CodeLine.writesLines_writeAll blank _ rest others)

end

include blank in
theorem Code.lines_block {header : Text} {body : List CodeLine}
    (each : ∀ text ∈ CodeLine.lines (.block header body), text.InLine) :
    (Code.text unit [.block header body]).lines.map Text.trimStart =
      (CodeLine.lines (.block header body)).map Text.trimStart := by
  obtain ⟨headerInLine, rest⟩ := List.forall_mem_cons.mp each
  obtain ⟨written, exact, inLine, reads⟩ := CodeLine.writesLines_writeAll blank 1 body
    (List.forall_mem_append.mp rest).1
  have closing : Text.InLine (indentation unit ((CodeLine.writeAll unit 1 body).2 - 1) ++ ['\x7d']) :=
    inLine_indentation_append blank _ ⟨by decide, by decide⟩
  have split : Code.text unit [.block header body] =
      ((header ++ " \x7b") :: written).flatMap Text.asLine ++
        (indentation unit ((CodeLine.writeAll unit 1 body).2 - 1) ++ ['\x7d']) := by
    rw [Code.text_block header body, exact, List.flatMap_cons, Text.asLine]
    simp only [List.append_assoc]
  rw [split, Text.lines_flatMap_asLine (List.forall_mem_cons.mpr ⟨headerInLine, inLine⟩) closing
    (by simp), CodeLine.lines]
  simp only [List.cons_append, List.map_cons, List.map_append, List.map_nil, reads,
    trimStart_indentation_append blank]

end Lines

end StyleMacros
