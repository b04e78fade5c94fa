import StyleMacros.Expansion.Fragment
import StyleMacros.Expansion.Names

/-!
# `@RegisterStyle` and `@ConvenienceModifierForStyle`

The first adds the property by which the environment gives access to the style in use, the
second a modifier that installs a style under that property.
-/

set_option autoImplicit false

namespace StyleMacros

def accessorMember (unit style : Text) : Fragment :=
  .member unit [
    .block ("var " ++ propertyOf style ++ ": " ++ erasedType style) [
      .block "get" [.line ("self[" ++ keyType style ++ ".self]")],
      .block "set" [.line ("self[" ++ keyType style ++ ".self] = newValue")]]]

def modifierMember (unit style : Text) : Fragment :=
  .member unit [
    .block ("public func " ++ propertyOf style ++ "(_ style: some " ++ style ++
        ") -> some View") [
      .line ("environment(\\." ++ propertyOf style ++ ", " ++ erasedType style ++
        "(style: style))")]]

end StyleMacros
