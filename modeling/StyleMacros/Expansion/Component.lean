import StyleMacros.Declaration
import StyleMacros.Expansion.Fragment
import StyleMacros.Expansion.Slot

/-!
# `@UIComponent` on a struct

Every generic parameter becomes a slot that holds a closure making the content. The body hands
the content of all slots, in the order of the parameters, to the style in the environment.
-/

set_option autoImplicit false

namespace StyleMacros

def componentSlots (component : Declaration) : List Slot :=
  component.genericParameters.map Slot.ofType

/-- The closure that makes the content of a slot. -/
def slotClosure (access : Text) (slot : Slot) : Fragment :=
  ⟨.member, access ++ "let " ++ slot.property ++ ": () -> " ++ slot.typeName⟩

def slotArgument (slot : Slot) : Text :=
  slot.property ++ ": Configuration." ++ slot.typeName ++ "(content: " ++ slot.property ++ "())"

def componentFragments (unit : Text) (component : Declaration) : List Fragment :=
  let access := AccessLevel.lead component.access
  let slots := componentSlots component
  [⟨.member,
      "@Environment(\\." ++ componentStyleProperty component.name ++ ") " ++ access ++ "var style"⟩,
    ⟨.member,
      access ++ "typealias Configuration = " ++ configurationType (componentStyle component.name)⟩] ++
  slots.map (slotClosure access) ++
  [.member unit [
    .block (access ++ "var body: some View") [
      .line ("style.makeBody(configuration: Configuration(" ++
        Text.join ", " (slots.map slotArgument) ++ "))")]]]

end StyleMacros
