import StyleMacros.Catalog
import StyleMacros.Declaration
import StyleMacros.Diagnostic
import StyleMacros.Text.Identifier
import StyleMacros.Text.LetterCase

/-!
# Use of the attributes

Each attribute asks for one kind of declaration and one form of arguments. `Invocation.use`
checks an invocation against its declaration; its answer holds the typed arguments, so that
expansion has nothing left to refuse.
-/

set_option autoImplicit false

namespace StyleMacros

/-- An invocation that fits its declaration. -/
inductive Use where
  | style (subViews : List Text)
  | registerStyle (style : Text)
  | convenienceModifier (style : Text)
  | component
  deriving DecidableEq

/-! ## Faults -/

inductive UseFault where
  | notAProtocol
  | notAStruct
  | notAnExtension
  /-- An extension, and not of the type asked for. -/
  | otherExtension (wanted : Text)
  /-- Not exactly one argument of the wanted shape. -/
  | shape (wanted : ArgumentShape)
  | label (found : Text)
  | notASubView (name : Text)
  /-- The name and its property would be spelled alike. -/
  | lowercaseSubView (name : Text)
  | repeatedSubView (name : Text)
  | notAStyleName (name : Text)
  | takesNoArguments
  deriving DecidableEq

namespace UseFault

def message (name : MacroName) : UseFault → Text
  | .notAProtocol => name.display ++ " can only be applied to protocol declarations."
  | .notAStruct => name.display ++ " can only be applied to struct declarations."
  | .notAnExtension => name.display ++ " can only be applied to extension declarations."
  | .otherExtension wanted =>
    name.display ++ " can only be applied to " ++ Text.article wanted ++ " `" ++ wanted ++
      "` extension declaration."
  | .shape wanted =>
    name.display ++ " macro expects one argument to be passed as " ++ wanted.text ++ "."
  | .label found =>
    name.display ++ " expects the argument label `subViews`, found `" ++ found ++ "`."
  | .notASubView subView => "`" ++ subView ++ "` is not a valid sub-view name."
  | .lowercaseSubView subView =>
    "sub-view name `" ++ subView ++ "` must start with an uppercase letter."
  | .repeatedSubView subView => "sub-view `" ++ subView ++ "` is declared more than once."
  | .notAStyleName style => "`" ++ style ++ "` is not a valid style name."
  | .takesNoArguments => name.display ++ " macro does not take any arguments."

def help (name : MacroName) : UseFault → Option Text
  | .shape _ => some ("usage: " ++ name.signature)
  | .label _ => some "write the sub-view names as `subViews: [\"Title\", \"Icon\"]`"
  | .lowercaseSubView subView =>
    some ("the wrapper type and its property would both be named `" ++ subView ++ "`; use `" ++
      Text.upperFirst subView ++ "`")
  | _ => none

end UseFault

/-! ## Arguments -/

/-- The first fault among sub-view names, given the properties of the names before them. -/
def subViewFault? (properties : List Text) : List Text → Option UseFault
  | [] => none
  | name :: rest =>
    if !name.isIdentifier then some (.notASubView name)
    else if name.lowerFirst = name then some (.lowercaseSubView name)
    else if name.lowerFirst ∈ properties then some (.repeatedSubView name)
    else subViewFault? (name.lowerFirst :: properties) rest

namespace Invocation

def fault (invocation : Invocation) (cause : UseFault) : Located UseFault :=
  ⟨cause, invocation.span⟩

/-- A fault of one argument; an argument without a place in the source borrows its invocation's. -/
def faultAt (invocation : Invocation) (argument : Argument) (cause : UseFault) :
    Located UseFault :=
  ⟨cause, if argument.span.isEmpty then invocation.span else argument.span⟩

def subViews (invocation : Invocation) : Except (Located UseFault) (List Text) :=
  match invocation.arguments with
  | [argument] =>
    match argument.label.filter (fun label => label ≠ "subViews".toList), argument.value with
    | some label, _ => .error (invocation.faultAt argument (.label label))
    | none, .string _ => .error (invocation.fault (.shape .list))
    | none, .list names =>
      match subViewFault? [] names with
      | some cause => .error (invocation.faultAt argument cause)
      | none => .ok names
  | _ => .error (invocation.fault (.shape .list))

def styleName (invocation : Invocation) : Except (Located UseFault) Text :=
  match invocation.arguments with
  | [argument] =>
    match argument.label, argument.value with
    | none, .string name =>
      if name.isIdentifier then .ok name
      else .error (invocation.faultAt argument (.notAStyleName name))
    | _, _ => .error (invocation.fault (.shape .string))
  | _ => .error (invocation.fault (.shape .string))

def requireExtension (invocation : Invocation) (declaration : Declaration) (wanted : Text) :
    Except (Located UseFault) Unit :=
  match declaration.kind with
  | .extensionOf extended =>
    if extended = wanted then .ok () else .error (invocation.fault (.otherExtension wanted))
  | _ => .error (invocation.fault .notAnExtension)

/-! ## Uses -/

/-- The use that an invocation makes of its declaration, or the first fault. The kind of the
declaration is looked at before the arguments. -/
def use (invocation : Invocation) (declaration : Declaration) (targets : Targets) :
    Except (Located UseFault) Use :=
  match invocation.name with
  | .style =>
    if declaration.kind ≠ .protocol then .error (invocation.fault .notAProtocol)
    else invocation.subViews.map Use.style
  | .registerStyle => do
    invocation.requireExtension declaration targets.environmentType
    return .registerStyle (← invocation.styleName)
  | .convenienceModifier => do
    invocation.requireExtension declaration targets.viewType
    return .convenienceModifier (← invocation.styleName)
  | .component =>
    if declaration.kind ≠ .struct then .error (invocation.fault .notAStruct)
    else if invocation.arguments ≠ [] then .error (invocation.fault .takesNoArguments)
    else .ok .component

end Invocation

def UseFault.diagnostic (fault : Located UseFault) (name : MacroName) (source : SourceText)
    (phase : Text) : Diagnostic :=
  ⟨.validation name (fault.value.message name), source, phase, fault.span, fault.value.help name⟩

end StyleMacros
