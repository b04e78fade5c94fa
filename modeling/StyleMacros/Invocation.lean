import StyleMacros.Span

/-!
# Invocations

The four attributes that generate code, and their literal arguments.
-/

set_option autoImplicit false

namespace StyleMacros

inductive MacroName where
  | style | registerStyle | convenienceModifier | component
  deriving DecidableEq

namespace MacroName

def all : List MacroName :=
  [.style, .registerStyle, .convenienceModifier, .component]

def text : MacroName → Text
  | .style => "Style"
  | .registerStyle => "RegisterStyle"
  | .convenienceModifier => "ConvenienceModifierForStyle"
  | .component => "UIComponent"

def ofText? (name : Text) : Option MacroName :=
  all.find? (fun candidate => candidate.text = name)

def display (name : MacroName) : Text :=
  "@" ++ name.text

end MacroName

inductive ArgumentValue where
  | string (value : Text)
  | list (values : List Text)
  deriving DecidableEq

inductive ArgumentShape where
  | string | list
  deriving DecidableEq

def ArgumentShape.text : ArgumentShape → Text
  | .string => "`String`"
  | .list => "`[String]`"

def ArgumentValue.shape : ArgumentValue → ArgumentShape
  | .string _ => .string
  | .list _ => .list

structure Argument where
  label : Option Text
  value : ArgumentValue
  span : Span
  deriving DecidableEq

structure Invocation where
  name : MacroName
  arguments : List Argument
  span : Span
  deriving DecidableEq

end StyleMacros
