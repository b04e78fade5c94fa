import StyleMacros.Text.Basic

/-!
# Reading positions in a YAML text

A cursor is the text still to be read and the place reached. Line breaks are those of YAML 1.1:
besides the line feed and the carriage return there are the next-line character and the two
Unicode separators.
-/

set_option autoImplicit false

namespace StyleMacros.Yaml

structure Place where
  index : Nat := 0
  line : Nat := 0
  column : Nat := 0
  deriving DecidableEq

def isBreak (char : Char) : Bool :=
  char = '\r' || char = '\n' || char = '\u0085' || char = '\u2028' || char = '\u2029'

def isBlank (char : Char) : Bool :=
  char = ' ' || char = '\t'

def isWordChar (char : Char) : Bool :=
  char.isAlphanum || char = '_' || char = '-'

def isPrintable (char : Char) : Bool :=
  let code := char.toNat
  char = '\t' || char = '\n' || char = '\r' || (0x20 ≤ code && code ≤ 0x7E) || code = 0x85 ||
    (0xA0 ≤ code && code ≤ 0xFFFD && code ≠ 0xFEFF) || 0x10000 ≤ code

structure Cursor where
  rest : Text
  place : Place := {}

namespace Cursor

def peek (cursor : Cursor) (ahead : Nat := 0) : Option Char :=
  cursor.rest[ahead]?

def column (cursor : Cursor) : Nat :=
  cursor.place.column

def atEnd (cursor : Cursor) : Bool :=
  cursor.rest.isEmpty

def sees (cursor : Cursor) (test : Char → Bool) (ahead : Nat := 0) : Bool :=
  (cursor.peek ahead).any test

def seesChar (cursor : Cursor) (char : Char) (ahead : Nat := 0) : Bool :=
  cursor.sees (· = char) ahead

def seesLineEnd (cursor : Cursor) (ahead : Nat := 0) : Bool :=
  (cursor.peek ahead).all isBreak

def seesGap (cursor : Cursor) (ahead : Nat := 0) : Bool :=
  (cursor.peek ahead).all fun char => isBlank char || isBreak char

def advance (cursor : Cursor) (count : Nat := 1) : Cursor :=
  ⟨cursor.rest.drop count,
    { cursor.place with index := cursor.place.index + count, column := cursor.column + count }⟩

/-- The text of the break at the cursor, and the cursor behind it. All breaks but the two
Unicode separators read as a line feed. -/
def takeBreak (cursor : Cursor) : Text × Cursor :=
  let behind (count : Nat) (rest : Text) : Cursor :=
    ⟨rest, ⟨cursor.place.index + count, cursor.place.line + 1, 0⟩⟩
  match cursor.rest with
  | '\r' :: '\n' :: rest => (['\n'], behind 2 rest)
  | char :: rest =>
    if isBreak char then
      (if char = '\u2028' || char = '\u2029' then [char] else ['\n'], behind 1 rest)
    else ([], cursor)
  | [] => ([], cursor)

def takeWhile (cursor : Cursor) (test : Char → Bool) : Text × Cursor :=
  let taken := cursor.rest.takeWhile test
  (taken, cursor.advance taken.length)

def skipWhile (cursor : Cursor) (test : Char → Bool) : Cursor :=
  (cursor.takeWhile test).2

def toLineEnd (cursor : Cursor) : Cursor :=
  cursor.skipWhile (!isBreak ·)

def seesDocumentMark (cursor : Cursor) : Bool :=
  cursor.column = 0 && cursor.seesGap 3 &&
    (cursor.rest.take 3 = ['-', '-', '-'] || cursor.rest.take 3 = ['.', '.', '.'])

end Cursor

/-! ## Gaps inside scalars -/

structure Gap where
  /-- Whether there is a break, or an escaped one before the gap. -/
  broken : Bool
  blanks : Text := []
  firstBreak : Text := []
  laterBreaks : Text := []

/-- The text of breaks in a folded scalar: one line feed reads as a blank, and in a series of
breaks a leading line feed is left out. -/
def foldedBreaks (first later : Text) : Text :=
  if first.head? = some '\n' then if later = [] then [' '] else later else first ++ later

namespace Gap

def text (gap : Gap) : Text :=
  if gap.broken then foldedBreaks gap.firstBreak gap.laterBreaks else gap.blanks

/-- The gap at the cursor and the cursor behind it. In a line that a break has opened, no tab may
stand left of column `least`. -/
def readWithin (least : Nat) : Nat → Gap → Cursor → Option (Gap × Cursor)
  | 0, gap, cursor => some (gap, cursor)
  | fuel + 1, gap, cursor =>
    match cursor.rest with
    | [] => some (gap, cursor)
    | char :: _ =>
      if isBlank char then
        if gap.broken && cursor.column < least && char = '\t' then none
        else
          let gap := if gap.broken then gap else { gap with blanks := gap.blanks ++ [char] }
          readWithin least fuel gap cursor.advance
      else if isBreak char then
        let (text, behind) := cursor.takeBreak
        let gap :=
          if gap.broken then { gap with laterBreaks := gap.laterBreaks ++ text }
          else { gap with broken := true, blanks := [], firstBreak := text }
        readWithin least fuel gap behind
      else some (gap, cursor)

def read (least : Nat) (gap : Gap) (cursor : Cursor) : Option (Gap × Cursor) :=
  readWithin least cursor.rest.length gap cursor

end Gap

end StyleMacros.Yaml
