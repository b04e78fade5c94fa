import StyleMacros.Yaml.Cursor

/-!
# Quoted scalars

In single quotes a quote is written twice; in double quotes a backslash begins an escape. Breaks
are folded in both.
-/

set_option autoImplicit false

namespace StyleMacros.Yaml

inductive Quote where
  | single | double
  deriving DecidableEq

def Quote.char : Quote → Char
  | .single => '\''
  | .double => '"'

def escapeLetter? : Char → Option Char
  | '0' => some '\x00'
  | 'a' => some '\x07'
  | 'b' => some '\x08'
  | 't' => some '\t'
  | '\t' => some '\t'
  | 'n' => some '\n'
  | 'v' => some '\x0b'
  | 'f' => some '\x0c'
  | 'r' => some '\r'
  | 'e' => some '\x1b'
  | ' ' => some ' '
  | '"' => some '"'
  | '/' => some '/'
  | '\\' => some '\\'
  | 'N' => some '\u0085'
  | '_' => some '\u00a0'
  | 'L' => some '\u2028'
  | 'P' => some '\u2029'
  | _ => none

def escapeDigits? : Char → Option Nat
  | 'x' => some 2
  | 'u' => some 4
  | 'U' => some 8
  | _ => none

def readEscape (cursor : Cursor) : Option (Char × Cursor) := do
  let letter ← cursor.peek
  match escapeLetter? letter with
  | some char => return (char, cursor.advance)
  | none =>
    let count ← escapeDigits? letter
    let digits := (cursor.advance.rest).take count
    guard (digits.length = count)
    let code ← Text.number? 16 digits
    guard code.isValidChar
    return (Char.ofNat code, cursor.advance (count + 1))

/-- A stretch without gaps: its text, whether an escaped break ends it, and the cursor behind. -/
def readStretchWithin (quote : Quote) : Nat → Cursor → Option (Text × Bool × Cursor)
  | 0, cursor => some ([], false, cursor)
  | fuel + 1, cursor =>
    match cursor.rest with
    | [] => some ([], false, cursor)
    | char :: rest =>
      if isBlank char || isBreak char then some ([], false, cursor)
      else if char = quote.char then
        if quote = .single && rest.head? = some '\'' then do
          let (text, broken, behind) ← readStretchWithin quote fuel (cursor.advance 2)
          return ('\'' :: text, broken, behind)
        else some ([], false, cursor)
      else if quote = .double && char = '\\' then
        if cursor.sees isBreak 1 then some ([], true, (cursor.advance).takeBreak.2)
        else do
          let (escaped, behind) ← readEscape cursor.advance
          let (text, broken, behind) ← readStretchWithin quote fuel behind
          return (escaped :: text, broken, behind)
      else do
        let (text, broken, behind) ← readStretchWithin quote fuel cursor.advance
        return (char :: text, broken, behind)

def readQuotedWithin (quote : Quote) : Nat → Cursor → Option (Text × Cursor)
  | 0, _ => none
  | fuel + 1, cursor => do
    guard (!cursor.seesDocumentMark && !cursor.atEnd)
    let (stretch, escapedBreak, behind) ← readStretchWithin quote cursor.rest.length cursor
    if behind.seesChar quote.char then return (stretch, behind.advance)
    let (gap, behind) ← Gap.read 0 { broken := escapedBreak } behind
    let (text, behind) ← readQuotedWithin quote fuel behind
    return (stretch ++ gap.text ++ text, behind)

def readQuoted (quote : Quote) (cursor : Cursor) : Option (Text × Cursor) :=
  readQuotedWithin quote (cursor.rest.length + 1) cursor.advance

end StyleMacros.Yaml
