import StyleMacros.Expansion.Fragment
import StyleMacros.Expansion.Slot

/-!
# `@Style` on a protocol

The protocol gets the requirements of a body builder. Next to it stand the four types that
every style needs: the configuration with one slot for each sub-view, a default style that
stacks the slots, the erased wrapper, and the key in the environment.
-/

set_option autoImplicit false

namespace StyleMacros

/-! ## Members -/

def styleMembers (style : Text) : List Fragment :=
  [⟨.member, "associatedtype Body: View"⟩,
    ⟨.member, "typealias Configuration = " ++ configurationType style⟩,
    ⟨.member, "@ViewBuilder func makeBody(configuration: Self.Configuration) -> Self.Body"⟩]

/-! ## Configuration -/

/-- The nested type of a slot, which takes any view as its content. -/
def slotWrapper (slot : Slot) : CodeLine :=
  .block ("public struct " ++ slot.typeName ++ ": View") [
    .line "public var body: AnyView",
    .blank,
    .block "public init<Content: View>(content: Content)" [.line "body = AnyView(content)"]]

def slotProperty (slot : Slot) : CodeLine :=
  .line ("public var " ++ slot.property ++ ": Self." ++ slot.typeName)

def configurationPeer (unit style : Text) (slots : List Slot) : Fragment :=
  let header := "public struct " ++ configurationType style
  if slots = [] then ⟨.peer, header ++ " \x7b\x7d"⟩
  else .peer unit [.block header (slots.map slotWrapper ++ .blank :: slots.map slotProperty)]

/-! ## Default style -/

def slotStack (slots : List Slot) : CodeLine :=
  if slots = [] then .line "VStack \x7b\x7d"
  else .block "VStack" (slots.map fun slot => .line ("configuration." ++ slot.property))

def defaultPeer (unit style : Text) (slots : List Slot) : Fragment :=
  .peer unit [
    .block ("public struct " ++ defaultType style ++ ": " ++ style) [
      .line "public init() \x7b\x7d",
      .blank,
      .block "public func makeBody(configuration: Configuration) -> some View" [
        slotStack slots]]]

/-! ## Erased style -/

def erasedPeer (unit style : Text) : Fragment :=
  .peer unit [
    .block ("struct " ++ erasedType style ++ ": " ++ style) [
      .line "private var _makeBody: (Configuration) -> AnyView",
      .blank,
      .block ("init(style: some " ++ style ++ ")") [
        .opening "_makeBody = \x7b configuration in",
        .line "AnyView(style.makeBody(configuration: configuration))",
        .closing "\x7d"],
      .blank,
      .block "func makeBody(configuration: Configuration) -> some View" [
        .line "_makeBody(configuration)"]]]

/-! ## Environment key -/

def keyPeer (unit style : Text) : Fragment :=
  .peer unit [
    .block ("struct " ++ keyType style ++ ": EnvironmentKey") [
      .line ("static let defaultValue = " ++ erasedType style ++ "(style: " ++
        defaultType style ++ "())")]]

/-! ## The whole expansion -/

def styleFragments (unit style : Text) (subViews : List Text) : List Fragment :=
  let slots := subViews.map Slot.ofType
  styleMembers style ++
    [configurationPeer unit style slots, defaultPeer unit style slots, erasedPeer unit style,
      keyPeer unit style]

end StyleMacros
