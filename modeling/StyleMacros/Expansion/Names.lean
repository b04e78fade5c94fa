import StyleMacros.Text.LetterCase

/-!
# Names derived from a style

The attributes meet in generated names only. Each name that two of them share is derived here
and nowhere else.
-/

set_option autoImplicit false

namespace StyleMacros

/-- The type that bundles what a style lays out. -/
def configurationType (style : Text) : Text :=
  style ++ "Configuration"

/-- The style that is used where none is installed. -/
def defaultType (style : Text) : Text :=
  "Default" ++ style

/-- The wrapper that hides which style is used. -/
def erasedType (style : Text) : Text :=
  "Any" ++ style

def keyType (style : Text) : Text :=
  style ++ "Key"

/-- The property or function named after a type: the type's name, with its first character in
lower case. -/
def propertyOf (typeName : Text) : Text :=
  typeName.lowerFirst

def componentStyle (component : Text) : Text :=
  component ++ "Style"

/-- The property of the environment under which a component finds its style. -/
def componentStyleProperty (component : Text) : Text :=
  propertyOf component ++ "Style"

end StyleMacros
