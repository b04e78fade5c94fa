import StyleMacros.Text.Basic

/-!
# Layout of generated code

Generated code is a sequence of lines, some of which open or close a level of indentation. A
block is a header, a body one level deeper and a closing brace.
-/

set_option autoImplicit false

namespace StyleMacros

def indentUnit (width : Nat) : Text :=
  List.replicate width ' '

def indentation (unit : Text) (level : Nat) : Text :=
  (List.replicate level unit).flatten

inductive CodeLine where
  | line (text : Text)
  | blank
  /-- The lines behind this one stand one level deeper. -/
  | opening (text : Text)
  /-- This line and those behind it stand one level less deep. -/
  | closing (text : Text)
  | block (header : Text) (body : List CodeLine)

abbrev Code := List CodeLine

/-- A line with its break; an empty line has no indentation. -/
def indentedLine (unit : Text) (level : Nat) (text : Text) : Text :=
  if text = [] then ['\n'] else indentation unit level ++ text ++ ['\n']

mutual

/-- The written form of one element at a level, and the level behind it. -/
def CodeLine.write (unit : Text) (level : Nat) : CodeLine → Text × Nat
  | .line text => (indentedLine unit level text, level)
  | .blank => (['\n'], level)
  | .opening text => (indentedLine unit level text, level + 1)
  | .closing text => (indentedLine unit (level - 1) text, level - 1)
  | .block header body =>
    let inner := CodeLine.writeAll unit (level + 1) body
    (indentedLine unit level (header ++ " \x7b") ++ inner.1 ++
      indentedLine unit (inner.2 - 1) ['\x7d'], inner.2 - 1)

def CodeLine.writeAll (unit : Text) (level : Nat) : List CodeLine → Text × Nat
  | [] => ([], level)
  | head :: rest =>
    let first := CodeLine.write unit level head
    let others := CodeLine.writeAll unit first.2 rest
    (first.1 ++ others.1, others.2)

end

def withoutFinalBreaks (text : Text) : Text :=
  (text.reverse.dropWhile (fun char => char = '\n')).reverse

namespace Code

/-- The text of the code when its first line stands at a level, without a final line break. -/
def textAt (unit : Text) (level : Nat) (code : Code) : Text :=
  withoutFinalBreaks (CodeLine.writeAll unit level code).1

def text (unit : Text) (code : Code) : Text :=
  code.textAt unit 0

end Code

/-- Puts `lead` before every line that is not empty. -/
def Text.indentLines (text lead : Text) : Text :=
  Text.join ['\n'] (text.lines.map fun line => if line = [] then [] else lead ++ line)

end StyleMacros
