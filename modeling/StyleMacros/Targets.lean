import StyleMacros.Text.Basic

/-!
# Target types

The names of the two types whose extensions take an attribute.
-/

set_option autoImplicit false

namespace StyleMacros

structure Targets where
  /-- The type that `@RegisterStyle` extends. -/
  environmentType : Text := "EnvironmentValues"
  /-- The type that `@ConvenienceModifierForStyle` extends. -/
  viewType : Text := "View"
  deriving DecidableEq

end StyleMacros
