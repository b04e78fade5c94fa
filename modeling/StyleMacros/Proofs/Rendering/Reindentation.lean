import Mathlib.Data.List.Induction
import Mathlib.Data.Nat.PSub
import StyleMacros.Proofs.Text.Levels
import StyleMacros.Rendering.File

/-!
# Code written deeper

Code that never closes a level which it has not opened has the same lines wherever it starts, all
of them as much deeper as the first one. Putting the indentation in front of the lines of its
finished text therefore gives the text that is written at the deeper level, and the members that
rendering puts into a body stand there as if they had been written there.
-/

set_option autoImplicit false

namespace StyleMacros

/-! ## Code that stays at its level -/

mutual

/-- The level behind an element, if no line of it closes level zero. -/
def CodeLine.levelBehind? (level : Nat) : CodeLine → Option Nat
  | .line _ => some level
  | .blank => some level
  | .opening _ => some (level + 1)
  | .closing _ => level.ppred
  | .block _ body => (CodeLine.levelBehindAll? (level + 1) body).bind Nat.ppred

def CodeLine.levelBehindAll? (level : Nat) : List CodeLine → Option Nat
  | [] => some level
  | head :: rest =>
    (CodeLine.levelBehind? level head).bind fun between => CodeLine.levelBehindAll? between rest

end

/-- The code never closes below the level that it starts at. -/
def Code.StaysInside (code : Code) : Prop :=
  (CodeLine.levelBehindAll? 0 code).isSome = true

instance (code : Code) : Decidable code.StaysInside :=
  inferInstanceAs (Decidable (_ = true))

def deepened (deeper : Nat) (lines : List (Nat × Text)) : List (Nat × Text) :=
  lines.map (Prod.map (deeper + ·) id)

section Deeper

variable (deeper : Nat)

mutual

/-- An element that stays inside ends at its level behind, and has its lines deeper when it starts
deeper. -/
theorem CodeLine.levels_add {level behind : Nat} : (line : CodeLine) →
    line.levelBehind? level = some behind → (line.levels level).2 = behind ∧
      line.levels (deeper + level) = (deepened deeper (line.levels level).1, deeper + behind)
  | .line text, stays => by
      cases stays
      exact ⟨rfl, rfl⟩
  | .blank, stays => by
      cases stays
      exact ⟨rfl, rfl⟩
  | .opening text, stays => by
      cases stays
      exact ⟨rfl, rfl⟩
  | .closing text, stays => by
      obtain rfl := Nat.ppred_eq_some.mp stays
      exact ⟨rfl, rfl⟩
  | .block header body, stays => by
      obtain ⟨inner, within, closes⟩ := Option.bind_eq_some_iff.mp stays
      obtain rfl := Nat.ppred_eq_some.mp closes
      obtain ⟨same, moved⟩ := CodeLine.levelsAll_add body within
      rw [CodeLine.levels, CodeLine.levels, same, Nat.add_assoc, moved]
      refine ⟨rfl, ?_⟩
      simp [deepened]

theorem CodeLine.levelsAll_add {level behind : Nat} : (lines : List CodeLine) →
    CodeLine.levelBehindAll? level lines = some behind →
      (CodeLine.levelsAll level lines).2 = behind ∧
        CodeLine.levelsAll (deeper + level) lines =
          (deepened deeper (CodeLine.levelsAll level lines).1, deeper + behind)
  | [], stays => by
      cases stays
      exact ⟨rfl, rfl⟩
  | head :: rest, stays => by
      obtain ⟨between, first, others⟩ := Option.bind_eq_some_iff.mp stays
      obtain ⟨headEnds, headMoved⟩ := CodeLine.levels_add head first
      obtain ⟨restEnds, restMoved⟩ := CodeLine.levelsAll_add rest others
      rw [CodeLine.levelsAll, CodeLine.levelsAll, headEnds, headMoved, restMoved]
      refine ⟨restEnds, ?_⟩
      simp [deepened]

end

end Deeper

mutual

theorem CodeLine.map_snd_levels (level : Nat) : (line : CodeLine) →
    (line.levels level).1.map Prod.snd = line.lines
  | .line _ => rfl
  | .blank => rfl
  | .opening _ => rfl
  | .closing _ => rfl
  | .block header body => by
      simp [CodeLine.levels, CodeLine.lines, CodeLine.map_snd_levelsAll (level + 1) body]

theorem CodeLine.map_snd_levelsAll (level : Nat) : (lines : List CodeLine) →
    (CodeLine.levelsAll level lines).1.map Prod.snd = CodeLine.linesAll lines
  | [] => rfl
  | head :: rest => by
      rw [CodeLine.levelsAll, CodeLine.linesAll, List.map_append,
        CodeLine.map_snd_levels level head, CodeLine.map_snd_levelsAll _ rest]

end

/-! ## Lines with a lead -/

theorem withoutFinalBreaks_append_break (text : Text) :
    withoutFinalBreaks (text ++ ['\n']) = withoutFinalBreaks text := by
  simp [withoutFinalBreaks]

theorem withoutFinalBreaks_flatMap_concat (written : List Text) (front : Text) {last : Char}
    (solid : last ≠ '\n') :
    withoutFinalBreaks ((written ++ [front ++ [last]]).flatMap Text.asLine) =
      written.flatMap Text.asLine ++ (front ++ [last]) := by
  rw [List.flatMap_append, List.flatMap_singleton, Text.asLine, ← List.append_assoc,
    ← List.append_assoc, withoutFinalBreaks_append_feed solid]

namespace Text

def withLead (line lead : Text) : Text :=
  if line = [] then [] else lead ++ line

theorem indentLines_withoutFinalBreaks (lead : Text) {written : List Text}
    (each : ∀ line ∈ written, line.InLine) :
    (withoutFinalBreaks (written.flatMap asLine)).indentLines lead =
      withoutFinalBreaks ((written.map (·.withLead lead)).flatMap asLine) := by
  -- the induction is from the last line on: an empty one goes together with its break
  induction written using List.reverseRecOn with
  | nil => rfl
  | append_singleton earlier line inductionHypothesis =>
      obtain ⟨earlierEach, lineEach⟩ := List.forall_mem_append.mp each
      have inLine := List.forall_mem_singleton.mp lineEach
      rw [List.map_append, List.map_singleton]
      rcases List.eq_nil_or_concat' line with rfl | ⟨front, last, rfl⟩
      · have closed (lines : List Text) : withoutFinalBreaks ((lines ++ [[]]).flatMap asLine) =
            withoutFinalBreaks (lines.flatMap asLine) := by
          rw [List.flatMap_append]
          exact withoutFinalBreaks_append_break (lines.flatMap asLine)
        rw [closed, inductionHypothesis earlierEach]
        exact (closed _).symm
      · have solid : last ≠ '\n' := by
          rintro rfl
          exact inLine.1 (by simp)
        have led : withLead (front ++ [last]) lead = lead ++ front ++ [last] := by
          simp [withLead]
        calc (withoutFinalBreaks ((earlier ++ [front ++ [last]]).flatMap asLine)).indentLines lead
          _ = join ['\n'] ((earlier ++ [front ++ [last]]).map (·.withLead lead)) := by
            rw [withoutFinalBreaks_flatMap_concat earlier front solid, indentLines,
              lines_flatMap_asLine earlierEach inLine (by simp)]
            rfl
          _ = (earlier.map (·.withLead lead)).flatMap asLine ++ (lead ++ front ++ [last]) := by
            rw [List.map_append, List.map_singleton, join_concat_eq_flatMap, led]
          _ = _ := by rw [led, withoutFinalBreaks_flatMap_concat _ _ solid]

end Text

/-! ## Written deeper -/

section Placed

variable {unit : Text}

theorem indentation_add (deeper level : Nat) :
    indentation unit (deeper + level) = indentation unit deeper ++ indentation unit level := by
  rw [indentation, indentation, indentation, List.replicate_add, List.flatten_append]

theorem indentation_succ (level : Nat) :
    indentation unit (level + 1) = indentation unit level ++ unit := by
  rw [indentation_add]
  simp [indentation]

/-- A line that stands deeper is the line with the indentation in front of it. -/
theorem placedLine_deeper (deeper : Nat) (line : Nat × Text) :
    placedLine unit (Prod.map (deeper + ·) id line) =
      (placedLine unit line).withLead (indentation unit deeper) := by
  obtain ⟨level, text⟩ := line
  by_cases empty : text = []
  · simp [placedLine, Text.withLead, empty]
  · simp [placedLine, Text.withLead, empty, indentation_add]

theorem map_placedLine_deepened (deeper : Nat) (lines : List (Nat × Text)) :
    (deepened deeper lines).map (placedLine unit) =
      (lines.map (placedLine unit)).map (·.withLead (indentation unit deeper)) := by
  rw [deepened, List.map_map, List.map_map]
  exact List.map_congr_left fun line _ => placedLine_deeper deeper line

variable (blank : ∀ char ∈ unit, char = ' ')

include blank in
theorem inLine_placedLine {line : Nat × Text} (inLine : line.2.InLine) :
    (placedLine unit line).InLine := by
  unfold placedLine
  split
  · exact ⟨List.not_mem_nil, List.not_mem_nil⟩
  · exact inLine_indentation_append blank line.1 inLine

end Placed

namespace Code

theorem textAt_eq (unit : Text) (level : Nat) (code : Code) :
    code.textAt unit level = withoutFinalBreaks
      (((CodeLine.levelsAll level code).1.map (placedLine unit)).flatMap Text.asLine) := by
  rw [textAt, CodeLine.writeAll_eq]

theorem inLine_of_mem_placed {unit : Text} (blank : ∀ char ∈ unit, char = ' ') {code : Code}
    (inLine : ∀ line ∈ CodeLine.linesAll code, line.InLine) (level : Nat) :
    ∀ line ∈ (CodeLine.levelsAll level code).1.map (placedLine unit), line.InLine := by
  intro line member
  obtain ⟨placed, placedMember, rfl⟩ := List.mem_map.mp member
  refine inLine_placedLine blank (inLine placed.2 ?_)
  rw [← CodeLine.map_snd_levelsAll level code]
  exact List.mem_map_of_mem placedMember

theorem indentLines_text {unit : Text} (blank : ∀ char ∈ unit, char = ' ') (deeper : Nat)
    {code : Code} (inLine : ∀ line ∈ CodeLine.linesAll code, line.InLine)
    (stays : code.StaysInside) :
    (code.text unit).indentLines (indentation unit deeper) = code.textAt unit deeper := by
  obtain ⟨behind, ends⟩ := Option.isSome_iff_exists.mp stays
  obtain ⟨-, moved⟩ := CodeLine.levelsAll_add deeper code ends
  have placed := inLine_of_mem_placed blank inLine 0
  rw [Nat.add_zero] at moved
  rw [text, textAt_eq, textAt_eq, Text.indentLines_withoutFinalBreaks _ placed,
    ← map_placedLine_deepened, moved]

theorem stackedFragments_text {unit : Text} (blank : ∀ char ∈ unit, char = ' ') (deeper : Nat)
    (role : FragmentRole) {codes : List Code}
    (each : ∀ code ∈ codes, (∀ line ∈ CodeLine.linesAll code, line.InLine) ∧ code.StaysInside) :
    stackedFragments (indentation unit deeper) (codes.map fun code => ⟨role, code.text unit⟩) =
      Text.join ['\n', '\n'] (codes.map fun code => code.textAt unit deeper) := by
  rw [stackedFragments, List.map_map]
  congr 1
  refine List.map_congr_left fun code member => ?_
  obtain ⟨inLine, stays⟩ := each code member
  exact indentLines_text blank deeper inLine stays

/-- For lines without line breaks, of code that never closes below the level that it starts at:
indenting the finished text by some levels is writing the code that much deeper. A block ends at the
level that it starts at when its body does. Members that are put into the body of an indented
declaration are therefore written one level deeper than the declaration. -/
theorem indentLines_text_eq_textAt :
    (∀ (width deeper : Nat) (code : Code),
      (∀ line ∈ CodeLine.linesAll code, line.InLine) → code.StaysInside →
        (code.text (indentUnit width)).indentLines (indentation (indentUnit width) deeper) =
          code.textAt (indentUnit width) deeper) ∧
    (∀ (unit : Text) (level : Nat) (header : Text) (body : List CodeLine),
      (CodeLine.writeAll unit (level + 1) body).2 = level + 1 →
        (CodeLine.write unit level (.block header body)).2 = level) ∧
    ∀ (width level : Nat) (codes : List Code),
      (∀ code ∈ codes, (∀ line ∈ CodeLine.linesAll code, line.InLine) ∧ code.StaysInside) →
        ∀ (source : Text) (body : Span), ∃ breaks ∈ [['\n'], ['\n', '\n']],
          (membersEdit source body (indentation (indentUnit width) level) (indentUnit width)
              (codes.map fun code => ⟨.member, code.text (indentUnit width)⟩)).text =
            breaks ++ Text.join ['\n', '\n']
                (codes.map fun code => code.textAt (indentUnit width) (level + 1)) ++
              '\n' :: indentation (indentUnit width) level := by
  refine ⟨fun width deeper code inLine stays => ?_, fun unit level header body restored => ?_,
    fun width level codes each source body => ?_⟩
  · exact indentLines_text (indentUnit_spaces width) deeper inLine stays
  · rw [CodeLine.write, restored, Nat.add_sub_cancel]
  · have stacked := stackedFragments_text (indentUnit_spaces width) (level + 1) .member each
    rw [indentation_succ] at stacked
    simp only [membersEdit, stacked]
    split
    · exact ⟨['\n'], by simp, by simp⟩
    · exact ⟨['\n', '\n'], by simp, by simp⟩

/-- A switch in a method, with a block in one of its cases and empty lines in between. -/
def switchMethod : Code :=
  [.blank, .block "func run()" [.opening "switch step \x7b", .line "case .first:",
    .block "do" [.blank, .line "start()"], .closing "\x7d", .blank], .blank]

theorem indentLines_text_of_switchMethod :
    (∀ line ∈ CodeLine.linesAll switchMethod, line.InLine) ∧ switchMethod.StaysInside ∧
      (switchMethod.text (indentUnit 2)).indentLines (indentation (indentUnit 2) 3) =
        switchMethod.textAt (indentUnit 2) 3 ∧
      (CodeLine.writeAll (indentUnit 2) 4 [.blank, .line "start()"]).2 = 4 ∧
      (CodeLine.write (indentUnit 2) 3 (.block "do" [.blank, .line "start()"])).2 = 3 ∧
      ∃ breaks ∈ [['\n'], ['\n', '\n']],
        (membersEdit "struct A \x7b\x7d" ⟨10, 10⟩ (indentation (indentUnit 2) 0) (indentUnit 2)
            [⟨.member, switchMethod.text (indentUnit 2)⟩]).text =
          breaks ++ Text.join ['\n', '\n'] [switchMethod.textAt (indentUnit 2) 1] ++
            '\n' :: indentation (indentUnit 2) 0 :=
  have inLine : ∀ line ∈ CodeLine.linesAll switchMethod, line.InLine := by decide
  have stays : switchMethod.StaysInside := by decide
  have restored : (CodeLine.writeAll (indentUnit 2) 4 [.blank, .line "start()"]).2 = 4 := rfl
  have each : ∀ code ∈ [switchMethod],
      (∀ line ∈ CodeLine.linesAll code, line.InLine) ∧ code.StaysInside :=
    List.forall_mem_singleton.mpr ⟨inLine, stays⟩
  ⟨inLine, stays, indentLines_text_eq_textAt.1 2 3 switchMethod inLine stays, restored,
    indentLines_text_eq_textAt.2.1 (indentUnit 2) 3 "do" [.blank, .line "start()"] restored,
    indentLines_text_eq_textAt.2.2 2 0 [switchMethod] each "struct A \x7b\x7d" ⟨10, 10⟩⟩

/-- Code that closes a level which it has not opened is written at the level above. -/
example : ¬ StaysInside [.closing "\x7d"] ∧
    (text (indentUnit 2) [.closing "\x7d"]).indentLines (indentation (indentUnit 2) 1) =
      "  \x7d".toList ∧ textAt (indentUnit 2) 1 [.closing "\x7d"] = "\x7d".toList := by
  decide

end Code

end StyleMacros
