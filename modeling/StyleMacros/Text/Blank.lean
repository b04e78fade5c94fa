import StyleMacros.Text.Basic

/-!
# Blank characters

Two notions of blank are in use. Between the tokens of a source file only a space, a tab and
the two line breaks are blank; trimming removes every character of the Unicode property
`White_Space`.
-/

set_option autoImplicit false

namespace StyleMacros

def isTokenBlank (char : Char) : Bool :=
  char = ' ' || char = '\t' || char = '\n' || char = '\r'

def isLineBreak (char : Char) : Bool :=
  char = '\n' || char = '\r'

def isInlineBlank (char : Char) : Bool :=
  char = ' ' || char = '\t'

/-- The Unicode property `White_Space`. -/
def isWhitespace (char : Char) : Bool :=
  let code := char.toNat
  (9 ≤ code && code ≤ 13) || code = 0x20 || code = 0x85 || code = 0xA0 || code = 0x1680 ||
    (0x2000 ≤ code && code ≤ 0x200A) || code = 0x2028 || code = 0x2029 || code = 0x202F ||
    code = 0x205F || code = 0x3000

theorem isWhitespace_of_isTokenBlank (char : Char) (blank : isTokenBlank char = true) :
    isWhitespace char = true := by
  simp only [isTokenBlank, Bool.or_eq_true, decide_eq_true_eq] at blank
  rcases blank with ((rfl | rfl) | rfl) | rfl <;> decide

namespace Text

def trimStart (text : Text) : Text :=
  text.dropWhile isWhitespace

def trimEnd (text : Text) : Text :=
  (text.reverse.dropWhile isWhitespace).reverse

def trim (text : Text) : Text :=
  trimEnd (trimStart text)

def isBlank (text : Text) : Bool :=
  text.all isWhitespace

end Text

end StyleMacros
