import StyleMacros.Text.Basic

/-!
# Line differences

The lines that two texts share are found in a table with a cell for every pair of lines. The
table is kept as one sequence, row after row, so that what is left of a row's first cell is the
last cell of the row above; the way back through the table makes use of that.
-/

set_option autoImplicit false

namespace StyleMacros

namespace LineDiff

/-! ## Shared lines -/

structure Pair where
  old : Array Text
  fresh : Array Text

namespace Pair

def width (pair : Pair) : Nat :=
  pair.fresh.size

def agree (pair : Pair) (row column : Nat) : Bool :=
  pair.old[row]? = pair.fresh[column]?

/-- The value of the next cell, with those before it at hand: in a cell of equal lines one more
than diagonally before it, in any other the greater of the values above and to the left. -/
def nextCell (pair : Pair) (cells : Array Nat) : Nat :=
  let index := cells.size
  let row := index / pair.width
  let column := index % pair.width
  let left := cells.getD (index - 1) 0
  let above := cells.getD (index - pair.width) 0
  if pair.agree row column then
    if row = 0 || column = 0 then 1 else cells.getD (index - pair.width - 1) 0 + 1
  else if row = 0 then if column = 0 then 0 else left
  else if column = 0 then above
  else max left above

def table (pair : Pair) : Array Nat :=
  (List.range (pair.old.size * pair.width)).foldl
    (fun cells _ => cells.push (pair.nextCell cells)) #[]

/-- The shared lines among the first `rows` old and the first `columns` fresh ones, in front of
those found already. -/
def back (pair : Pair) (cells : Array Nat) : Nat → Nat → List Text → List Text
  | row + 1, column + 1, found =>
    if pair.agree row column then
      pair.back cells row column (pair.old.getD row [] :: found)
    else if row = 0 && column = 0 then found
    else
      let before := cells.getD (row * pair.width + column - 1) 0
      let above := cells.getD ((row - 1) * pair.width + column) 0
      if row = 0 || before > above then pair.back cells (row + 1) column found
      else pair.back cells row (column + 1) found
  | _, _, found => found
termination_by rows columns => rows + columns

end Pair

/-! ## Changes -/

def linesOf (text : Text) : List Text :=
  if text = [] then [] else Text.splitOn '\n' text

/-- The lines shared by two texts, in order. A single empty line does not count. -/
def shared (old fresh : Text) : List Text :=
  let pair : Pair := ⟨(Text.splitOn '\n' old).toArray, (Text.splitOn '\n' fresh).toArray⟩
  let found := pair.back pair.table pair.old.size pair.fresh.size []
  if found = [[]] then [] else found

inductive Mark where
  | same | removed | added
  deriving DecidableEq

/-- All lines with their marks. Up to each shared line, the old lines come before the fresh
ones. -/
def marked : List Text → List Text → List Text → List (Mark × Text)
  | [], old, fresh => old.map (Mark.removed, ·) ++ fresh.map (Mark.added, ·)
  | line :: rest, old, fresh =>
    (old.takeWhile (· ≠ line)).map (Mark.removed, ·) ++
      (fresh.takeWhile (· ≠ line)).map (Mark.added, ·) ++
      (Mark.same, line) ::
        marked rest ((old.dropWhile (· ≠ line)).drop 1) ((fresh.dropWhile (· ≠ line)).drop 1)

def runs (entries : List (Mark × Text)) : List (List (Mark × Text)) :=
  entries.splitBy fun left right => left.1 = right.1

def between (old fresh : Text) : List (List (Mark × Text)) :=
  runs (marked (shared old fresh) (linesOf old) (linesOf fresh))

end LineDiff

end StyleMacros
