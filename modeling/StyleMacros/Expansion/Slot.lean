import StyleMacros.Expansion.Names

/-!
# Slots

A slot is one piece of content that a style lays out: a type and the property that holds a
value of it. The configuration of a style has one slot for each sub-view, a component one for
each generic parameter.
-/

set_option autoImplicit false

namespace StyleMacros

structure Slot where
  typeName : Text
  property : Text
  deriving DecidableEq

namespace Slot

def ofType (typeName : Text) : Slot :=
  ⟨typeName, propertyOf typeName⟩

end Slot

end StyleMacros
