import StyleMacros.Text.HiddenRanges
import StyleMacros.Text.Identifier

/-!
# Texts in quotes

A text as a message shows it: in double quotes, with an escape for every character that would
not show as itself.
-/

set_option autoImplicit false

namespace StyleMacros

def quotedChar (char : Char) : Text :=
  if char = '\x00' then "\\0"
  else if char = '\t' then "\\t"
  else if char = '\n' then "\\n"
  else if char = '\r' then "\\r"
  else if char = '"' || char = '\\' then ['\\', char]
  else if inRanges char.toNat hiddenRanges then
    "\\u\x7b" ++ Nat.toDigits 16 char.toNat ++ "\x7d"
  else [char]

def Text.quoted (text : Text) : Text :=
  '"' :: text.flatMap quotedChar ++ ['"']

end StyleMacros
