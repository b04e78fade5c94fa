import StyleMacros.Expansion.File
import StyleMacros.Report.Json

/-!
# Reports as JSON

What is read at a site and what it expands to, with the diagnostics in short form.
-/

set_option autoImplicit false

namespace StyleMacros

def Span.json (span : Span) : JsonValue :=
  .object [("start", .number span.start), ("end", .number span.stop)]

def DeclarationKind.reportName : DeclarationKind → Text
  | .protocol => "Protocol"
  | .struct => "StructType"
  | .class_ => "ClassType"
  | .enum => "EnumType"
  | .actor => "ActorType"
  | .extensionOf _ => "ExtensionOfType"

def DeclarationKind.json (kind : DeclarationKind) : JsonValue :=
  .object <| ("kind", .string kind.reportName) ::
    match kind with
    | .extensionOf extended => [("extended_type", .string extended)]
    | _ => []

def Declaration.json (declaration : Declaration) : JsonValue :=
  .object [
    ("name", .string declaration.name),
    ("kind", declaration.kind.json),
    ("generic_parameters", .strings declaration.genericParameters),
    ("access", .optional (fun level => .string level.keyword) declaration.access),
    ("span", declaration.span.json)]

def ArgumentValue.json : ArgumentValue → JsonValue
  | .string value => .string value
  | .list values => .strings values

def Argument.json (argument : Argument) : JsonValue :=
  .object [
    ("label", .optional .string argument.label),
    ("value", argument.value.json),
    ("span", argument.span.json)]

def Invocation.json (invocation : Invocation) : JsonValue :=
  .object [
    ("name", .string invocation.name.text),
    ("arguments", .array (invocation.arguments.map Argument.json)),
    ("span", invocation.span.json)]

def FragmentRole.reportName : FragmentRole → Text
  | .member => "member_addition"
  | .peer => "peer_type"

def Fragment.json (fragment : Fragment) : JsonValue :=
  .object [("role", .string fragment.role.reportName), ("source_text", .string fragment.text)]

def Diagnostic.json (diagnostic : Diagnostic) : JsonValue :=
  let blamed : List (Text × JsonValue) :=
    match diagnostic.kind.macroName? with
    | some name => [("macro", .string name.display)]
    | none => []
  .object (("code", .string diagnostic.code) ::
    (blamed ++ [(("message" : Text), JsonValue.string diagnostic.kind.message)]))

def SiteExpansion.json (site : SiteExpansion) : JsonValue :=
  .object [
    ("declaration", .optional Declaration.json site.declaration),
    ("invocations", .array (site.invocations.map Invocation.json)),
    ("generated", .array (site.fragments.map Fragment.json)),
    ("errors", .array (site.errors.map Diagnostic.json))]

def FileExpansion.json (expansion : FileExpansion) : JsonValue :=
  .array (expansion.sites.map SiteExpansion.json)

def AnnotatedDeclaration.json (annotated : AnnotatedDeclaration) : JsonValue :=
  JsonValue.sorted <| .object [
    ("declaration", annotated.declaration.json),
    ("invocations", .array (annotated.invocations.map Invocation.json))]

def Diagnostic.siteJson (diagnostic : Diagnostic) : JsonValue :=
  JsonValue.sorted <| .object [("error", diagnostic.json)]

end StyleMacros
