import StyleMacros.Text.Basic

/-!
# Coloured text

A terminal changes its colours on escape sequences. Painted text begins with a reset and the
sequences of its ink and ends with a reset.
-/

set_option autoImplicit false

namespace StyleMacros

inductive Colour where
  | red | green | yellow | cyan
  deriving DecidableEq

structure Ink where
  colour : Colour
  bold : Bool := false
  deriving DecidableEq

namespace Ink

def digit : Colour → Char
  | .red => '1'
  | .green => '2'
  | .yellow => '3'
  | .cyan => '6'

def escape (digits : Text) : Text :=
  '\x1b' :: '[' :: digits ++ ['m']

def reset : Text :=
  escape ['0']

def start (ink : Ink) : Text :=
  reset ++ (if ink.bold then escape ['1'] else []) ++ escape ['3', digit ink.colour]

def paint (ink : Ink) (coloured : Bool) (text : Text) : Text :=
  if coloured then ink.start ++ text ++ reset else text

end Ink

end StyleMacros
