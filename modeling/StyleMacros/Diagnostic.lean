import StyleMacros.Invocation

/-!
# Diagnostics

A diagnostic says what went wrong, in which step, in which source and where in it. The wording
that depends on the kind alone is here; the faults of each step have their wording beside the
step.
-/

set_option autoImplicit false

namespace StyleMacros

/-! ## Kinds -/

inductive DiagnosticKind where
  /-- The text cannot be read. -/
  | parse (construct : Text)
  /-- The attribute does not stand before a type declaration. -/
  | malformedDeclaration (name : MacroName) (reason : Text)
  /-- An argument is not a literal. -/
  | malformedArgument (name : MacroName) (reason : Text)
  /-- The attribute is well written and wrongly used. -/
  | validation (name : MacroName) (message : Text)
  | io (path : Text) (message : Text)
  | config (message : Text)
  deriving DecidableEq

inductive DiagnosticCategory where
  | parse | validation | argument | tool
  deriving DecidableEq

namespace DiagnosticKind

def category : DiagnosticKind → DiagnosticCategory
  | .parse _ => .parse
  | .malformedDeclaration _ _ => .validation
  | .malformedArgument _ _ => .argument
  | .validation _ _ => .validation
  | .io _ _ => .tool
  | .config _ => .tool

def codeSuffix : DiagnosticKind → Text
  | .parse _ => "parse"
  | .malformedDeclaration _ _ => "malformed_declaration"
  | .malformedArgument _ _ => "malformed_argument"
  | .validation _ _ => "validation"
  | .io _ _ => "io"
  | .config _ => "config"

def label : DiagnosticKind → Text
  | .parse _ => "malformed syntax"
  | .malformedDeclaration _ _ => "not a type declaration"
  | .malformedArgument _ _ => "not a literal"
  | .validation _ _ => "invalid macro use"
  | .io _ _ => "i/o failure"
  | .config _ => "invalid configuration"

def macroName? : DiagnosticKind → Option MacroName
  | .malformedDeclaration name _ => some name
  | .malformedArgument name _ => some name
  | .validation name _ => some name
  | _ => none

def display : DiagnosticKind → Text
  | .parse construct => "Parse error: " ++ construct
  | .malformedDeclaration name reason =>
    "Malformed declaration for " ++ name.display ++ ": " ++ reason
  | .malformedArgument name reason => "Malformed argument for " ++ name.display ++ ": " ++ reason
  | .validation _ message => message
  | .io path message => "I/O error on '" ++ path ++ "': " ++ message
  | .config message => "Configuration error: " ++ message

/-- The message as it stands at an attribute, where the category goes without saying. -/
def message : DiagnosticKind → Text
  | .malformedDeclaration _ reason => reason
  | .malformedArgument _ reason => reason
  | kind => kind.display

end DiagnosticKind

/-! ## Sources -/

structure SourceText where
  name : Text
  content : Text
  deriving DecidableEq

namespace SourceText

def placeholder (remark : Text) : SourceText :=
  ⟨"fallback", "// " ++ remark⟩

def absent : SourceText :=
  placeholder "no source"

end SourceText

/-! ## Diagnostics -/

structure Diagnostic where
  kind : DiagnosticKind
  source : SourceText
  /-- The step in which the fault was found. -/
  phase : Text
  span : Span
  help : Option Text
  deriving DecidableEq

namespace Diagnostic

def code (diagnostic : Diagnostic) : Text :=
  "stylegen::" ++ diagnostic.phase ++ "::" ++ diagnostic.kind.codeSuffix

/-- A diagnostic about the surroundings, with no place in a source. -/
def ofTool (kind : DiagnosticKind) : Diagnostic :=
  let phase : Text :=
    match kind with
    | .config _ => "config"
    | _ => "io"
  ⟨kind, SourceText.placeholder phase, phase, {}, none⟩

def io (path message : Text) : Diagnostic :=
  ofTool (.io path message)

def config (message : Text) : Diagnostic :=
  ofTool (.config message)

end Diagnostic

end StyleMacros
