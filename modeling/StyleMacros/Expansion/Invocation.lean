import StyleMacros.Expansion.Component
import StyleMacros.Expansion.Environment
import StyleMacros.Expansion.Style
import StyleMacros.Usage

/-!
# Expansion of one invocation

An invocation that fits its declaration expands to fragments; one that does not expands to a
diagnostic and nothing else.
-/

set_option autoImplicit false

namespace StyleMacros

def Use.fragments (unit : Text) (declaration : Declaration) : Use → List Fragment
  | .style subViews => styleFragments unit declaration.name subViews
  | .registerStyle name => [accessorMember unit name]
  | .convenienceModifier name => [modifierMember unit name]
  | .component => componentFragments unit declaration

structure ExpansionSettings where
  targets : Targets := {}
  /-- One level of indentation. -/
  unit : Text := indentUnit 4

def Invocation.expand (invocation : Invocation) (declaration : Declaration)
    (settings : ExpansionSettings) (source : SourceText) : Except Diagnostic (List Fragment) :=
  match invocation.use declaration settings.targets with
  | .ok use => .ok (use.fragments settings.unit declaration)
  | .error fault => .error (UseFault.diagnostic fault invocation.name source "validate")

end StyleMacros
