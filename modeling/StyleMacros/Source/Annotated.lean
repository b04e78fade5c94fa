import StyleMacros.Diagnostic
import StyleMacros.Source.Tree

/-!
# Annotated declarations

A site is usable if its attributes have readable arguments, stand before a type declaration
and take literals only. `Site.annotated` gives the declaration with its invocations, or the
first fault. Faults of the argument lists come first, then those of the target, then those of
the arguments in their order.
-/

set_option autoImplicit false

namespace StyleMacros

structure AnnotatedDeclaration where
  declaration : Declaration
  invocations : List Invocation
  deriving DecidableEq

/-! ## Faults -/

inductive SiteFault where
  | noMacro
  | malformedArguments (name : Text)
  /-- A declaration that begins as it should and cannot be read to its end. -/
  | incompleteDeclaration (keyword : Text)
  | otherTarget (name : MacroName) (word : Text)
  | noTarget (name : MacroName)
  | noValue (name : MacroName)
  | notALiteral (name : MacroName) (found : Text)
  | notAStringElement (name : MacroName) (found : Text)
  | nestedArray (name : MacroName)
  | interpolated (name : MacroName)
  deriving DecidableEq

namespace SiteFault

def kind : SiteFault → DiagnosticKind
  | .noMacro => .parse "site without a macro attribute"
  | .malformedArguments name => .parse ("malformed argument list for @" ++ name)
  | .incompleteDeclaration keyword => .parse ("incomplete `" ++ keyword ++ "` declaration")
  | .otherTarget name word =>
    .malformedDeclaration name
      (name.display ++ " must be attached to a type or extension declaration, found `" ++ word ++
        "`.")
  | .noTarget name =>
    .malformedDeclaration name
      (name.display ++ " must be attached to a type or extension declaration.")
  | .noValue name => .malformedArgument name "argument has no value."
  | .notALiteral name found =>
    .malformedArgument name
      ("expected a string literal or an array of string literals, found `" ++ found ++ "`.")
  | .notAStringElement name found =>
    .malformedArgument name ("expected a string literal, found `" ++ found ++ "`.")
  | .nestedArray name =>
    .malformedArgument name "nested arrays are not supported; expected a string literal."
  | .interpolated name =>
    .malformedArgument name "string interpolation is not allowed in macro arguments."

def help : SiteFault → Option Text
  | .malformedArguments _ =>
    some "arguments must be string literals or arrays of string literals"
  | .incompleteDeclaration _ =>
    some "a declaration needs a name and a body in balanced braces"
  | _ => none

def diagnostic (fault : Located SiteFault) (source : SourceText) (phase : Text) : Diagnostic :=
  ⟨fault.value.kind, source, phase, fault.span, fault.value.help⟩

end SiteFault

/-! ## Arguments -/

def Expression.literalString (name : MacroName) : Expression → Except (Located SiteFault) Text
  | .string _ true span => .error ⟨.interpolated name, span⟩
  | .string value false _ => .ok value
  | .array _ span => .error ⟨.nestedArray name, span⟩
  | .other text span => .error ⟨.notAStringElement name text, span⟩

def Expression.literal (name : MacroName) (expression : Expression) :
    Except (Located SiteFault) ArgumentValue :=
  match expression with
  | .string _ _ _ => (expression.literalString name).map ArgumentValue.string
  | .array elements _ => (elements.mapM (Expression.literalString name)).map ArgumentValue.list
  | .other text span => .error ⟨.notALiteral name text, span⟩

def SourceArgument.literal (name : MacroName) (written : SourceArgument) :
    Except (Located SiteFault) Argument :=
  match written.value with
  | none => .error ⟨.noValue name, written.span⟩
  | some expression =>
    (expression.literal name).map fun value => ⟨written.label, value, written.span⟩

def Attribute.invocation (name : MacroName) (written : Attribute) :
    Except (Located SiteFault) Invocation :=
  ((written.arguments.getD []).mapM (SourceArgument.literal name)).map fun arguments =>
    ⟨name, arguments, written.span⟩

/-! ## Targets -/

def SourceDeclaration.declaration (written : SourceDeclaration) : Declaration :=
  ⟨written.name, .ofKeyword written.keyword written.name,
    written.genericParameters.map GenericParameter.name,
    written.modifiers.findSome? Modifier.access?, written.span⟩

def Site.declaration (site : Site) (name : MacroName) : Except (Located SiteFault) Declaration :=
  match site.target with
  | .declaration written => .ok written.declaration
  | .word word span =>
    if (Keyword.ofText? word).isSome then .error ⟨.incompleteDeclaration word, span⟩
    else .error ⟨.otherTarget name word, span⟩
  | .nothing => .error ⟨.noTarget name, site.span⟩

/-! ## Sites -/

/-- The declaration of a site with its invocations, or the first fault. -/
def Site.annotated (site : Site) : Except (Located SiteFault) AnnotatedDeclaration :=
  match site.macros with
  | [] => .error ⟨.noMacro, site.span⟩
  | (first, _) :: _ =>
    match site.macros.find? (fun used => used.2.malformedArguments) with
    | some (_, written) =>
      .error ⟨.malformedArguments written.name, ⟨written.span.stop, written.span.stop + 1⟩⟩
    | none => do
      let declaration ← site.declaration first
      let invocations ← site.macros.mapM fun used => used.2.invocation used.1
      return ⟨declaration, invocations⟩

end StyleMacros
