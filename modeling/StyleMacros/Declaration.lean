import StyleMacros.Span

/-!
# Declarations

The type declaration or extension that an attribute is attached to, as far as the generated
code depends on it.
-/

set_option autoImplicit false

namespace StyleMacros

/-! ## Access levels -/

inductive AccessLevel where
  | open_ | public_ | package | internal | fileprivate | private_
  deriving DecidableEq

namespace AccessLevel

def all : List AccessLevel :=
  [.open_, .public_, .package, .internal, .fileprivate, .private_]

def keyword : AccessLevel → Text
  | .open_ => "open"
  | .public_ => "public"
  | .package => "package"
  | .internal => "internal"
  | .fileprivate => "fileprivate"
  | .private_ => "private"

def ofKeyword? (word : Text) : Option AccessLevel :=
  all.find? (fun level => level.keyword = word)

/-- The level as it stands before a generated member: with a blank, or not at all. -/
def lead : Option AccessLevel → Text
  | none => []
  | some level => level.keyword ++ " "

end AccessLevel

/-! ## Kinds -/

inductive Keyword where
  | protocol | struct | class_ | enum | actor | extension_
  deriving DecidableEq

namespace Keyword

def all : List Keyword :=
  [.protocol, .struct, .class_, .enum, .actor, .extension_]

def text : Keyword → Text
  | .protocol => "protocol"
  | .struct => "struct"
  | .class_ => "class"
  | .enum => "enum"
  | .actor => "actor"
  | .extension_ => "extension"

def ofText? (word : Text) : Option Keyword :=
  all.find? (fun keyword => keyword.text = word)

end Keyword

/-- What is declared; an extension carries the extended type as written. -/
inductive DeclarationKind where
  | protocol | struct | class_ | enum | actor
  | extensionOf (extended : Text)
  deriving DecidableEq

namespace DeclarationKind

def ofKeyword (keyword : Keyword) (name : Text) : DeclarationKind :=
  match keyword with
  | .protocol => .protocol
  | .struct => .struct
  | .class_ => .class_
  | .enum => .enum
  | .actor => .actor
  | .extension_ => .extensionOf name

def keyword : DeclarationKind → Keyword
  | .protocol => .protocol
  | .struct => .struct
  | .class_ => .class_
  | .enum => .enum
  | .actor => .actor
  | .extensionOf _ => .extension_

def display : DeclarationKind → Text
  | .extensionOf extended => "extension of `" ++ extended ++ "`"
  | kind => kind.keyword.text

def isExtensionOf (kind : DeclarationKind) (typeName : Text) : Bool :=
  kind = .extensionOf typeName

end DeclarationKind

/-! ## Declarations -/

structure Declaration where
  name : Text
  kind : DeclarationKind
  genericParameters : List Text
  access : Option AccessLevel
  span : Span
  deriving DecidableEq

end StyleMacros
