import StyleMacros.Source.Expression
import StyleMacros.Text.Identifier

/-!
# Attributes

An attribute is an at sign and a name, with a list of arguments right behind it or without one.
-/

set_option autoImplicit false

namespace StyleMacros

/-- A label with a colon, behind which the value may be missing. -/
def readLabelledArgument (total : Nat) (text : Text) : Option (SourceArgument × Text) := do
  let (label, rest) ← text.identifier?
  let ':' :: behind := skipTrivia rest | none
  let start := skipTrivia behind
  match readExpression total start with
  | some (value, rest) => return (⟨some label, some value, .between total text rest⟩, rest)
  | none => return (⟨some label, none, .between total text start⟩, start)

def readBareArgument (total : Nat) (text : Text) : Option (SourceArgument × Text) := do
  let (value, rest) ← readExpression total text
  return (⟨none, some value, .between total text rest⟩, rest)

def readArgument (total : Nat) (text : Text) : Option (SourceArgument × Text) :=
  readLabelledArgument total text <|> readBareArgument total text

def readArguments (total : Nat) (text : Text) : Option (List SourceArgument × Text) :=
  match text with
  | '(' :: content => readClosedList (readArgument total) ')' content
  | _ => none

def opensArguments (text : Text) : Bool :=
  (text.dropWhile isInlineBlank).head? = some '('

def readAttribute (total : Nat) (text : Text) : Option (Attribute × Text) := do
  let '@' :: behind := text | none
  let (name, rest) ← Text.identifier? behind
  match readArguments total rest with
  | some (arguments, rest) =>
    return (⟨name, some arguments, false, .between total text rest⟩, rest)
  | none => return (⟨name, none, opensArguments rest, .between total text rest⟩, rest)

end StyleMacros
