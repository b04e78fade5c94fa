import StyleMacros.Yaml.Cursor

/-!
# Block scalars

A block scalar stands on lines of its own. Its header says whether breaks are folded, what
becomes of the breaks at the end, and how far the lines are indented if that cannot be seen
from the first of them.
-/

set_option autoImplicit false

namespace StyleMacros.Yaml

inductive BlockStyle where
  | literal | folded
  deriving DecidableEq

/-- What becomes of the breaks at the end: all but one go, all go, or all stay. -/
inductive Chomping where
  | clip | strip | keep
  deriving DecidableEq

/-! ## Header -/

def readChomping (cursor : Cursor) : Option (Chomping × Cursor) :=
  match cursor.peek with
  | some '+' => some (.keep, cursor.advance)
  | some '-' => some (.strip, cursor.advance)
  | _ => none

def readIncrement (cursor : Cursor) : Option (Nat × Cursor) :=
  match cursor.peek with
  | some digit =>
    if digit.isDigit then
      if digit = '0' then none else some (digit.toNat - '0'.toNat, cursor.advance)
    else some (0, cursor)
  | none => some (0, cursor)

def readIndicators (cursor : Cursor) : Option (Chomping × Nat × Cursor) :=
  match readChomping cursor with
  | some (chomping, behind) => do
    let (increment, behind) ← readIncrement behind
    return (chomping, increment, behind)
  | none => do
    let (increment, behind) ← readIncrement cursor
    if increment = 0 then return (.clip, 0, behind)
    match readChomping behind with
    | some (chomping, behind) => return (chomping, increment, behind)
    | none => return (.clip, increment, behind)

def readHeaderEnd (cursor : Cursor) : Option Cursor := do
  let behind := cursor.skipWhile isBlank
  let behind := if behind.seesChar '#' then behind.toLineEnd else behind
  guard behind.seesLineEnd
  return behind.takeBreak.2

/-! ## Lines -/

/-- Empty lines and the indentation of the next line: the breaks, the widest indentation seen,
and the cursor behind. An indentation of zero stands for one not yet known. -/
def readEmptyLinesWithin (indent : Nat) : Nat → Nat → Cursor → Option (Text × Nat × Cursor)
  | 0, widest, cursor => some ([], widest, cursor)
  | fuel + 1, widest, cursor => do
    let blanks := (cursor.rest.takeWhile (· = ' ')).length
    let count := if indent = 0 then blanks else min blanks (indent - cursor.column)
    let behind := cursor.advance count
    let widest := max widest behind.column
    guard (!((indent = 0 || behind.column < indent) && behind.seesChar '\t'))
    if behind.sees isBreak then
      let (text, behind) := behind.takeBreak
      let (breaks, widest, behind) ← readEmptyLinesWithin indent fuel widest behind
      return (text ++ breaks, widest, behind)
    else return ([], widest, behind)

def readEmptyLines (indent : Nat) (cursor : Cursor) : Option (Text × Nat × Cursor) :=
  readEmptyLinesWithin indent (cursor.rest.length + 1) 0 cursor

/-- What a block scalar has been read of: its text, the break behind its last line and the
breaks of the empty lines behind that. -/
structure BlockLines where
  text : Text := []
  lastBreak : Text := []
  emptyLines : Text
  /-- Whether the last line began with a blank. -/
  indented : Bool := false

def readLinesWithin (style : BlockStyle) (indent : Nat) :
    Nat → BlockLines → Cursor → Option (BlockLines × Cursor)
  | 0, lines, cursor => some (lines, cursor)
  | fuel + 1, lines, cursor =>
    if cursor.column ≠ indent || cursor.atEnd then some (lines, cursor)
    else do
      let indented := cursor.sees isBlank
      let joint :=
        if style = .folded && lines.lastBreak.head? = some '\n' && !lines.indented && !indented then
          if lines.emptyLines = [] then [' '] else []
        else lines.lastBreak
      let (line, behind) := cursor.takeWhile (!isBreak ·)
      let (lastBreak, behind) := behind.takeBreak
      let (emptyLines, _, behind) ← readEmptyLines indent behind
      readLinesWithin style indent fuel
        ⟨lines.text ++ joint ++ lines.emptyLines ++ line, lastBreak, emptyLines, indented⟩ behind

/-! ## The whole scalar -/

/-- The block scalar whose indicator is at the cursor. `floor` is the least column at which a
line inside the surrounding block may begin. -/
def readBlock (style : BlockStyle) (floor : Nat) (cursor : Cursor) : Option (Text × Cursor) := do
  let (chomping, increment, behind) ← readIndicators cursor.advance
  let behind ← readHeaderEnd behind
  let explicit := if increment = 0 then 0 else floor - 1 + increment
  let (emptyLines, widest, behind) ← readEmptyLines explicit behind
  let indent := if explicit = 0 then max (max widest floor) 1 else explicit
  let (lines, behind) ← readLinesWithin style indent (behind.rest.length + 1)
    { emptyLines := emptyLines } behind
  let tail :=
    match chomping with
    | .strip => []
    | .clip => lines.lastBreak
    | .keep => lines.lastBreak ++ lines.emptyLines
  return (lines.text ++ tail, behind)

end StyleMacros.Yaml
