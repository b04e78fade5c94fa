import StyleMacros.Proofs.Rendering.Edits
import StyleMacros.Proofs.Rendering.Ranges

/-!
# What rendering leaves out

Rendering goes through the source once, from left to right. It copies characters, puts texts of
its own in, and leaves out nothing but attributes that name a macro and whitespace, whatever
sites have been dropped and whatever errors have been taken out before.
-/

set_option autoImplicit false

namespace StyleMacros

/-! ## One pass over a text -/

/-- The output arises from the text, whose first character stands at the offset, in one pass in
which characters are kept, those that may be left out are left out, and texts are put in. -/
inductive Rewritten (removable : Nat → Char → Bool) (insertable : Text → Prop) :
    Nat → Text → Text → Prop
  | done (offset : Nat) : Rewritten removable insertable offset [] []
  | keep {offset : Nat} {char : Char} {rest output : Text}
      (later : Rewritten removable insertable (offset + char.utf8Size) rest output) :
      Rewritten removable insertable offset (char :: rest) (char :: output)
  | leave {offset : Nat} {char : Char} {rest output : Text}
      (allowed : removable offset char = true)
      (later : Rewritten removable insertable (offset + char.utf8Size) rest output) :
      Rewritten removable insertable offset (char :: rest) output
  | put {offset : Nat} {rest output text : Text} (allowed : insertable text)
      (later : Rewritten removable insertable offset rest output) :
      Rewritten removable insertable offset rest (text ++ output)

/-- The characters that may not be left out, in their order. -/
def Text.fixed (removable : Nat → Char → Bool) (offset : Nat) : Text → Text
  | [] => []
  | head :: rest =>
    if removable offset head then fixed removable (offset + head.utf8Size) rest
    else head :: fixed removable (offset + head.utf8Size) rest

namespace Rewritten

variable {removable : Nat → Char → Bool} {insertable : Text → Prop} {offset : Nat}
  {rest output : Text}

theorem keepAll {piece : Text}
    (later : Rewritten removable insertable (offset + piece.size) rest output) :
    Rewritten removable insertable offset (piece ++ rest) (piece ++ output) := by
  induction piece generalizing offset with
  | nil => exact later
  | cons head tail inductionHypothesis =>
      rw [Text.size_cons, ← Nat.add_assoc] at later
      exact .keep (inductionHypothesis later)

theorem leaveAll {piece : Text}
    (allowed : ∀ front char behind, piece = front ++ char :: behind →
      removable (offset + Text.size front) char = true)
    (later : Rewritten removable insertable (offset + piece.size) rest output) :
    Rewritten removable insertable offset (piece ++ rest) output := by
  induction piece generalizing offset with
  | nil => exact later
  | cons head tail inductionHypothesis =>
      rw [Text.size_cons, ← Nat.add_assoc] at later
      refine .leave (allowed [] head tail rfl) (inductionHypothesis ?_ later)
      intro front char behind split
      have moved := allowed (head :: front) char behind (by rw [split]; rfl)
      rwa [Text.size_cons, ← Nat.add_assoc] at moved

theorem fixed_sublist {text : Text} (run : Rewritten removable insertable offset text output) :
    (text.fixed removable offset).Sublist output := by
  induction run with
  | done offset => exact .slnil
  | keep _ inductionHypothesis =>
      rw [Text.fixed]
      split
      · exact inductionHypothesis.cons _
      · exact inductionHypothesis.cons_cons _
  | leave allowed _ inductionHypothesis =>
      rw [Text.fixed, if_pos allowed]
      exact inductionHypothesis
  | @put offset rest output text _ _ inductionHypothesis =>
      exact inductionHypothesis.trans (List.sublist_append_right text output)

end Rewritten

/-! ## Edits that cover removable characters -/

def Edit.Clears (edit : Edit) (source : Text) (removable : Nat → Char → Bool) : Prop :=
  ∀ place char, source.CharAt place char → edit.start ≤ place → place < edit.stop →
    removable place char = true

/-- Applying edits is a pass that leaves out what they cover and puts in their texts. -/
theorem Edit.applyFrom_rewritten {source : Text} {removable : Nat → Char → Bool}
    {edits : List Edit}
    (fits : ∀ edit ∈ edits, source.IsBoundary edit.start ∧ source.IsBoundary edit.stop ∧
      edit.start ≤ edit.stop)
    (clears : ∀ edit ∈ edits, edit.Clears source removable) {insertable : Text → Prop}
    (inserts : ∀ edit ∈ edits, insertable edit.text) {cursor : Nat}
    (boundary : source.IsBoundary cursor) :
    Rewritten removable insertable cursor (source.dropBytes cursor)
      (Edit.applyFrom source cursor edits) := by
  -- the pass has come to the cursor: either the next edit is left out and the cursor stays, or
  -- the text up to the edit is kept, and the cursor moves behind what the edit covers
  induction edits generalizing cursor with
  | nil =>
      have whole : Rewritten removable insertable cursor (source.dropBytes cursor ++ [])
          (source.dropBytes cursor ++ []) := Rewritten.keepAll (.done _)
      rwa [List.append_nil] at whole
  | cons edit later inductionHypothesis =>
      obtain ⟨start, stop, ordered⟩ := fits edit List.mem_cons_self
      have laterRun := fun {place : Nat} (first : source.IsBoundary place) =>
        inductionHypothesis (fun other member => fits other (List.mem_cons_of_mem edit member))
          (fun other member => clears other (List.mem_cons_of_mem edit member))
          (fun other member => inserts other (List.mem_cons_of_mem edit member)) first
      rw [Edit.applyFrom]
      split
      · exact laterRun boundary
      · rename_i outside
        have behind := Nat.le_of_not_lt outside
        rw [boundary.dropBytes_eq_slice_append start behind,
          start.dropBytes_eq_slice_append stop ordered, List.append_assoc]
        apply Rewritten.keepAll
        rw [boundary.size_slice start behind, Nat.add_sub_cancel' behind]
        apply Rewritten.put (inserts edit List.mem_cons_self)
        apply Rewritten.leaveAll
        · intro front char rest split
          have found := start.charAt_of_slice stop ordered split
          have sizes := start.size_slice stop ordered
          have positive := char.utf8Size_pos
          rw [split, Text.size_append, Text.size_cons] at sizes
          exact clears edit List.mem_cons_self _ char found (Nat.le_add_right _ _) (by omega)
        · rw [start.size_slice stop ordered, Nat.add_sub_cancel' ordered]
          exact laterRun stop

/-! ## Rendering -/

/-- The header part of an output: nothing, or the header without the whitespace at its end and an
empty line behind it. -/
inductive HeaderPart : Option Text → Text → Prop
  | nothing : HeaderPart none []
  | line {kept blanks : Text} (blank : ∀ char ∈ blanks, isWhitespace char = true)
      (solid : ∀ last ∈ kept.getLast?, isWhitespace last = false) :
      HeaderPart (some (kept ++ blanks)) (kept ++ ['\n', '\n'])

theorem RenderOptions.headerPart (options : RenderOptions) :
    HeaderPart options.header options.lead := by
  unfold RenderOptions.lead
  cases options.header with
  | none => exact .nothing
  | some header =>
      obtain ⟨blanks, split, blank⟩ := Text.exists_blanks_of_trimEnd header
      have solid : ∀ last ∈ header.trimEnd.getLast?, isWhitespace last = false := by
        intro last ends
        by_cases empty : header.trimEnd = []
        · rw [empty] at ends
          cases ends
        · obtain ⟨front, final, exact, solid⟩ := Text.exists_solid_end_of_trimEnd empty
          rw [exact, List.getLast?_concat] at ends
          cases ends
          exact solid
      have part := HeaderPart.line blank solid
      rwa [← split] at part

namespace FileExpansion

/-- Whether a character is whitespace or stands in an attribute that names a macro. -/
def removable (expansion : FileExpansion) (offset : Nat) (char : Char) : Bool :=
  isWhitespace char || expansion.sites.any fun site =>
    site.macroSpans.any fun span => span.start ≤ offset && offset < span.stop

def Inserts (expansion : FileExpansion) (source unit text : Text) : Prop :=
  ∃ edit ∈ expansion.edits source unit, edit.text = text

theorem edits_clear {expansion : FileExpansion} {source unit : Text}
    (placed : expansion.Placed source) {edit : Edit}
    (member : edit ∈ expansion.edits source unit) : edit.Clears source expansion.removable := by
  intro place char found low high
  obtain ⟨site, siteMember, inside⟩ := List.mem_flatMap.mp member
  have sitePlaced := placed.sites site siteMember
  unfold removable
  rw [Bool.or_eq_true]
  rcases site.mem_edits_cases inside with
    ⟨span, spanMember, rfl⟩ | ⟨declaration, declared, ⟨body, bodied, _, rfl⟩ | ⟨_, rfl⟩⟩
  · have removes := sitePlaced.removes spanMember
    by_cases before : place < span.start
    · exact .inl (removes.blankBefore place char found low before)
    · by_cases within : place < span.stop
      · right
        refine List.any_eq_true.mpr ⟨site, siteMember, List.any_eq_true.mpr ⟨span, spanMember, ?_⟩⟩
        simp only [Bool.and_eq_true, decide_eq_true_eq]
        omega
      · exact .inl (removes.blankBehind place char found (by omega) high)
  · left
    exact (membersEdit_fills (sitePlaced.body body bodied) _ unit site.members).blank place char
      found low high
  · have same : (peersEdit source declaration.span.stop (source.lineIndent site.span.start)
        site.peers).start = (peersEdit source declaration.span.stop
        (source.lineIndent site.span.start) site.peers).stop := rfl
    omega

end FileExpansion

/-- What rendering answers is the header part and a text that arises from the source in one pass: texts
of edits are put in, and whatever is left out is whitespace or part of an attribute that names a
macro and belongs to a remaining site. So all else is in the output, in its order. -/
theorem render_leaves_out_only_attributes_and_blanks (source : SourceText)
    (settings : ExpansionSettings) (steps : List ExpansionStep) (options : RenderOptions)
    (output : Text)
    (success : ((FileExpansion.ofSource source settings).run steps).render source.content options =
      some output) :
    ∃ lead body, HeaderPart options.header lead ∧ output = lead ++ body ∧
      Rewritten ((FileExpansion.ofSource source settings).run steps).removable
        (((FileExpansion.ofSource source settings).run steps).Inserts source.content options.unit)
        0 source.content body ∧
      (source.content.fixed ((FileExpansion.ofSource source settings).run steps).removable
        0).Sublist body := by
  have placed := FileExpansion.run_placed (FileExpansion.ofSource_placed source settings) steps
  generalize (FileExpansion.ofSource source settings).run steps = expansion at success placed
  unfold FileExpansion.render at success
  split at success
  · cases success
  · have run : Rewritten expansion.removable
        (expansion.Inserts source.content options.unit) 0 (source.content.dropBytes 0)
        (Edit.apply (expansion.edits source.content options.unit) source.content) := by
      apply Edit.applyFrom_rewritten
      · intro edit member
        exact placed.edit_fits (Edit.mem_sort.mp member)
      · intro edit member
        exact FileExpansion.edits_clear placed (Edit.mem_sort.mp member)
      · intro edit member
        exact ⟨edit, Edit.mem_sort.mp member, rfl⟩
      · exact .zero source.content
    have whole : source.content.dropBytes 0 = source.content :=
      Text.dropBytes_size_append [] source.content
    rw [whole] at run
    exact ⟨options.lead, _, options.headerPart, (Option.some.inj success).symm, run,
      run.fixed_sublist⟩

/-- A site that cannot be expanded, and one that gets a member. -/
def flawedBeforeSound : SourceText :=
  ⟨"Views.swift",
    "@Style protocol A \x7b\x7d\n" ++
    "@RegisterStyle(\"B\") extension EnvironmentValues \x7b \x7d // B\n"⟩

def headedOptions : RenderOptions :=
  ⟨indentUnit 4, some "// Generated, do not edit \n"⟩

def flawedBeforeSoundRendered : Text :=
  "// Generated, do not edit\n\n" ++
  "protocol A \x7b\x7d\n" ++
  "extension EnvironmentValues \x7b\n" ++
  "    var b: AnyB \x7b\n" ++
  "        get \x7b\n" ++
  "            self[BKey.self]\n" ++
  "        \x7d\n" ++
  "        set \x7b\n" ++
  "            self[BKey.self] = newValue\n" ++
  "        \x7d\n" ++
  "    \x7d\n" ++
  "\x7d // B\n"

theorem render_leaves_out_two_attributes_once_errors_are_taken :
    ((FileExpansion.ofSource flawedBeforeSound {}).run [.takeErrors]).render
        flawedBeforeSound.content headedOptions = some flawedBeforeSoundRendered ∧
      ∃ lead body, HeaderPart (some "// Generated, do not edit \n") lead ∧
        flawedBeforeSoundRendered = lead ++ body ∧
        Rewritten ((FileExpansion.ofSource flawedBeforeSound {}).run [.takeErrors]).removable
          (((FileExpansion.ofSource flawedBeforeSound {}).run [.takeErrors]).Inserts
            flawedBeforeSound.content (indentUnit 4)) 0 flawedBeforeSound.content body ∧
        (flawedBeforeSound.content.fixed
          ((FileExpansion.ofSource flawedBeforeSound {}).run [.takeErrors]).removable
          0).Sublist body := by
  have success : ((FileExpansion.ofSource flawedBeforeSound {}).run [.takeErrors]).render
      flawedBeforeSound.content headedOptions = some flawedBeforeSoundRendered := by
    decide +kernel
  exact ⟨success, render_leaves_out_only_attributes_and_blanks flawedBeforeSound {} [.takeErrors]
    headedOptions _ success⟩

end StyleMacros
