import StyleMacros.Yaml.Cursor

/-!
# Plain scalars

A plain scalar has no marks around it. It ends before a colon with a gap behind it, before a
comment, before a line that is not indented enough and, between brackets, before a comma or a
bracket.
-/

set_option autoImplicit false

namespace StyleMacros.Yaml

def isBracket (char : Char) : Bool :=
  char = '[' || char = ']' || char = '\x7b' || char = '\x7d'

def isAfterColonBarred (char : Char) : Bool :=
  char = ',' || char = '?' || isBracket char

def readPlainStretchWithin (inFlow : Bool) : Nat → Cursor → Option (Text × Cursor)
  | 0, cursor => some ([], cursor)
  | fuel + 1, cursor =>
    match cursor.rest with
    | [] => some ([], cursor)
    | char :: _ =>
      if isBlank char || isBreak char then some ([], cursor)
      else if inFlow && char = ':' && cursor.sees isAfterColonBarred 1 then none
      else if (char = ':' && cursor.seesGap 1) || (inFlow && (char = ',' || isBracket char)) then
        some ([], cursor)
      else do
        let (text, behind) ← readPlainStretchWithin inFlow fuel cursor.advance
        return (char :: text, behind)

structure PlainScalar where
  text : Text
  /-- The end of the last stretch. -/
  stop : Place
  /-- Whether a line break follows. -/
  broken : Bool
  behind : Cursor

/-- The scalar from a stretch on; `gap` is what stands before the stretch and `stop` where the
stretch before it ends. Outside brackets further lines are indented by `least` columns. -/
def readPlainWithin (inFlow : Bool) (least : Nat) :
    Nat → Gap → Place → Cursor → Option PlainScalar
  | 0, _, _, _ => none
  | fuel + 1, gap, stop, cursor =>
    if cursor.seesDocumentMark || cursor.seesChar '#' then
      some ⟨[], stop, gap.broken, cursor⟩
    else do
      let (stretch, behind) ← readPlainStretchWithin inFlow cursor.rest.length cursor
      let lead := if stretch = [] then [] else gap.text
      let stop := if stretch = [] then stop else behind.place
      if !behind.seesGap || behind.atEnd then
        return ⟨lead ++ stretch, stop, stretch = [] && gap.broken, behind⟩
      let before : Gap := if stretch = [] then gap else { broken := false }
      let (gap, behind) ← Gap.read least before behind
      if !inFlow && behind.column < least then
        return ⟨lead ++ stretch, stop, gap.broken, behind⟩
      let later ← readPlainWithin inFlow least fuel gap stop behind
      return { later with text := lead ++ stretch ++ later.text }

def readPlain (inFlow : Bool) (least : Nat) (cursor : Cursor) : Option PlainScalar :=
  readPlainWithin inFlow least (cursor.rest.length + 1) { broken := false } cursor.place cursor

end StyleMacros.Yaml
