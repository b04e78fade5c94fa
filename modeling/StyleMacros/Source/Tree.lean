import StyleMacros.Declaration
import StyleMacros.Invocation

/-!
# Annotated sites as written

A site is a run of attributes, one of them a macro at least, with what they are attached to.
The tree keeps what is written, whether or not the attributes are used as they should be.
-/

set_option autoImplicit false

namespace StyleMacros

/-! ## Attributes -/

inductive Expression where
  /-- A string literal, with its escapes resolved. -/
  | string (value : Text) (interpolated : Bool) (span : Span)
  | array (elements : List Expression) (span : Span)
  /-- Anything else, as written. -/
  | other (text : Text) (span : Span)

def Expression.span : Expression → Span
  | .string _ _ span => span
  | .array _ span => span
  | .other _ span => span

structure SourceArgument where
  label : Option Text
  value : Option Expression
  span : Span

structure Attribute where
  name : Text
  /-- The arguments, if there is a readable list of them right behind the name. -/
  arguments : Option (List SourceArgument)
  /-- Whether a parenthesis follows that opens no readable list. -/
  malformedArguments : Bool
  span : Span

/-- The macro that the attribute names. An attribute that names none is passed through. -/
def Attribute.macroName? (written : Attribute) : Option MacroName :=
  MacroName.ofText? written.name

/-! ## Declarations -/

inductive Modifier where
  | access (level : AccessLevel)
  | final
  | indirect
  | nonisolated
  deriving DecidableEq

namespace Modifier

def all : List Modifier :=
  AccessLevel.all.map Modifier.access ++ [.final, .indirect, .nonisolated]

def text : Modifier → Text
  | .access level => level.keyword
  | .final => "final"
  | .indirect => "indirect"
  | .nonisolated => "nonisolated"

def ofText? (word : Text) : Option Modifier :=
  all.find? (fun modifier => modifier.text = word)

def access? : Modifier → Option AccessLevel
  | .access level => some level
  | _ => none

end Modifier

structure GenericParameter where
  name : Text
  constraint : Option Text
  deriving DecidableEq

structure SourceDeclaration where
  modifiers : List Modifier
  keyword : Keyword
  name : Text
  genericParameters : List GenericParameter
  inheritance : List Text
  requirements : Option Text
  /-- The text between the braces. -/
  body : Span
  span : Span
  deriving DecidableEq

inductive Target where
  | declaration (declaration : SourceDeclaration)
  /-- A word that opens no readable type declaration. -/
  | word (word : Text) (span : Span)
  | nothing
  deriving DecidableEq

/-! ## Sites -/

structure Site where
  attributes : List Attribute
  target : Target
  span : Span

def Site.macros (site : Site) : List (MacroName × Attribute) :=
  site.attributes.filterMap fun written => written.macroName?.map (·, written)

end StyleMacros
