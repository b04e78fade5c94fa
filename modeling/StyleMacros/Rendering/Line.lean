import StyleMacros.Text.Blank

/-!
# Lines around an offset

The parts of a source line before and behind a byte offset, as rendering needs them.
-/

set_option autoImplicit false

namespace StyleMacros.Text

def lineStart (source : Text) (offset : Nat) : Nat :=
  offset - size ((source.takeBytes offset).reverse.takeWhile (· ≠ '\n'))

def lineBefore (source : Text) (offset : Nat) : Text :=
  source.slice (source.lineStart offset) offset

/-- What stands on the line from `offset` on, without the line feed. -/
def lineAfter (source : Text) (offset : Nat) : Text :=
  (source.dropBytes offset).takeWhile (· ≠ '\n')

/-- The offset behind the line of `offset` and its line feed. -/
def nextLine (source : Text) (offset : Nat) : Nat :=
  let stop := offset + size (source.lineAfter offset)
  if stop < source.size then stop + 1 else stop

def lineIndent (source : Text) (offset : Nat) : Text :=
  (source.dropBytes (source.lineStart offset)).takeWhile isInlineBlank

end StyleMacros.Text
