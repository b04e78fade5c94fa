import StyleMacros.Yaml.Cursor

/-!
# Tags and directives

A tag names the type of a node: by a full name in angle brackets, or by a handle that a
directive declares and a suffix. Escaped bytes in a name are read as UTF-8.
-/

set_option autoImplicit false

namespace StyleMacros.Yaml

/-- A tag as written. A full name has an empty handle. -/
structure WrittenTag where
  handle : Text
  suffix : Text
  deriving DecidableEq

/-! ## Names -/

def isTagChar (char : Char) : Bool :=
  isWordChar char || char ∈ ";/?:@&=+$.%!~*'()".toList

def readEscapedByte (cursor : Cursor) : Option (Nat × Cursor) := do
  guard (cursor.seesChar '%')
  let high ← (← cursor.peek 1) |> Text.digitValue? 16
  let low ← (← cursor.peek 2) |> Text.digitValue? 16
  return (high * 16 + low, cursor.advance 3)

/-- The number of continuation bytes behind a first byte, and the bits it contributes. -/
def leadingByte? (byte : Nat) : Option (Nat × Nat) :=
  if byte < 0x80 then some (0, byte)
  else if 0xC0 ≤ byte ∧ byte < 0xE0 then some (1, byte - 0xC0)
  else if 0xE0 ≤ byte ∧ byte < 0xF0 then some (2, byte - 0xE0)
  else if 0xF0 ≤ byte ∧ byte < 0xF8 then some (3, byte - 0xF0)
  else none

def readContinuation : Nat → Nat → Cursor → Option (Nat × Cursor)
  | 0, code, cursor => some (code, cursor)
  | count + 1, code, cursor => do
    let (byte, behind) ← readEscapedByte cursor
    guard (0x80 ≤ byte && byte < 0xC0)
    readContinuation count (code * 64 + (byte - 0x80)) behind

def readEscapedChar (cursor : Cursor) : Option (Char × Cursor) := do
  let (byte, behind) ← readEscapedByte cursor
  let (count, bits) ← leadingByte? byte
  let (code, behind) ← readContinuation count bits behind
  guard code.isValidChar
  return (Char.ofNat code, behind)

def readTagName (verbatim : Bool) : Nat → Cursor → Option (Text × Cursor)
  | 0, cursor => some ([], cursor)
  | fuel + 1, cursor =>
    match cursor.rest with
    | [] => some ([], cursor)
    | char :: _ =>
      if isTagChar char || (verbatim && (char = ',' || char = '[' || char = ']')) then do
        let (char, behind) ← if char = '%' then readEscapedChar cursor else some (char, cursor.advance)
        let (text, behind) ← readTagName verbatim fuel behind
        return (char :: text, behind)
      else some ([], cursor)

/-- An exclamation mark, letters, and a second exclamation mark if there is one. -/
def readHandle (cursor : Cursor) : Option (Text × Cursor) := do
  guard (cursor.seesChar '!')
  let (letters, behind) := cursor.advance.takeWhile isWordChar
  if behind.seesChar '!' then return ('!' :: letters ++ ['!'], behind.advance)
  return ('!' :: letters, behind)

/-! ## Tags -/

def readVerbatimTag (cursor : Cursor) : Option (WrittenTag × Cursor) := do
  let (name, behind) ← readTagName true cursor.rest.length (cursor.advance 2)
  guard (name ≠ [] && behind.seesChar '>')
  return (⟨[], name⟩, behind.advance)

/-- A tag with a handle. What looked like the primary handle with letters is its suffix. -/
def readShortTag (cursor : Cursor) : Option (WrittenTag × Cursor) := do
  let (handle, behind) ← readHandle cursor
  let (suffix, behind) ← readTagName false cursor.rest.length behind
  if handle.length ≥ 2 && handle.getLast? = some '!' then
    guard (suffix ≠ [])
    return (⟨handle, suffix⟩, behind)
  let name := handle.drop 1 ++ suffix
  if name = [] then return (⟨[], ['!']⟩, behind)
  return (⟨['!'], name⟩, behind)

/-- The tag at the cursor, which a gap ends or, between brackets, a comma. -/
def readTag (inFlow : Bool) (cursor : Cursor) : Option (WrittenTag × Cursor) := do
  let (tag, behind) ←
    if cursor.seesChar '<' 1 then readVerbatimTag cursor else readShortTag cursor
  guard (behind.seesGap || (inFlow && behind.seesChar ','))
  return (tag, behind)

/-! ## Directives -/

inductive Directive where
  | version (major minor : Nat)
  /-- What a handle stands for. -/
  | handle (handle : Text) (expansion : Text)

def readVersionNumber (cursor : Cursor) : Option (Nat × Cursor) := do
  let (digits, behind) := cursor.takeWhile Char.isDigit
  guard (digits.length ≤ 9)
  return (← Text.number? 10 digits, behind)

def readVersion (cursor : Cursor) : Option (Directive × Cursor) := do
  let (major, behind) ← readVersionNumber (cursor.skipWhile isBlank)
  guard (behind.seesChar '.')
  let (minor, behind) ← readVersionNumber behind.advance
  return (.version major minor, behind)

def readHandleDirective (cursor : Cursor) : Option (Directive × Cursor) := do
  let (handle, behind) ← readHandle (cursor.skipWhile isBlank)
  guard (handle.length = 1 || handle.getLast? = some '!')
  guard (behind.sees isBlank)
  let behind := behind.skipWhile isBlank
  let (expansion, behind) ← readTagName true behind.rest.length behind
  guard (expansion ≠ [] && behind.seesGap)
  return (.handle handle expansion, behind)

def readDirective (cursor : Cursor) : Option (Directive × Cursor) := do
  let (name, behind) := cursor.advance.takeWhile isWordChar
  guard behind.seesGap
  let (directive, behind) ←
    if name = "YAML".toList then readVersion behind
    else if name = "TAG".toList then readHandleDirective behind
    else none
  let behind := behind.skipWhile isBlank
  let behind := if behind.seesChar '#' then behind.toLineEnd else behind
  guard behind.seesLineEnd
  return (directive, behind.takeBreak.2)

end StyleMacros.Yaml
