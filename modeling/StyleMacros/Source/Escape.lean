import StyleMacros.Text.Basic

/-!
# Escapes in string literals

A backslash and a letter stand for a character; `\u` with a hexadecimal number in braces stands
for the character of that code. An escape that means nothing stays as it is written.
-/

set_option autoImplicit false

namespace StyleMacros

def escapedChar? : Char → Option Char
  | 'n' => some '\n'
  | 't' => some '\t'
  | 'r' => some '\r'
  | '0' => some '\x00'
  | '\\' => some '\\'
  | '"' => some '"'
  | '\'' => some '\''
  | _ => none

def charOfCode? (code : Nat) : Option Char :=
  if code.isValidChar then some (Char.ofNat code) else none

/-- The number of a code escape: hexadecimal digits, with a plus sign in front or not. -/
def codeOfDigits? : Text → Option Nat
  | '+' :: digits => Text.number? 16 digits
  | digits => Text.number? 16 digits

/-- What a code escape with the given digits stands for; one that names no character is
written out with both its braces. -/
def codeEscape (digits : Text) : Text :=
  match (codeOfDigits? digits).bind charOfCode? with
  | some char => [char]
  | none => "\\u\x7b" ++ digits ++ "\x7d"

def unescapeWithin : Nat → Text → Text
  | 0, _ => []
  | _, [] => []
  | fuel + 1, '\\' :: 'u' :: '\x7b' :: rest =>
    codeEscape (rest.takeWhile (· ≠ '\x7d')) ++
      unescapeWithin fuel ((rest.dropWhile (· ≠ '\x7d')).drop 1)
  | fuel + 1, '\\' :: letter :: rest =>
    (match escapedChar? letter with
      | some char => [char]
      | none => ['\\', letter]) ++ unescapeWithin fuel rest
  | fuel + 1, head :: rest => head :: unescapeWithin fuel rest

/-- The value of a literal from the text between its quotes. -/
def unescape (text : Text) : Text :=
  unescapeWithin text.length text

end StyleMacros
