import StyleMacros.Code.Layout

/-!
# Fragments

A fragment is one generated declaration. A member goes into the body of the declaration that
carries the attribute, a peer goes next to it.
-/

set_option autoImplicit false

namespace StyleMacros

inductive FragmentRole where
  | member | peer
  deriving DecidableEq

structure Fragment where
  role : FragmentRole
  text : Text
  deriving DecidableEq

namespace Fragment

def isMember (fragment : Fragment) : Bool :=
  fragment.role = .member

def isPeer (fragment : Fragment) : Bool :=
  fragment.role = .peer

def member (unit : Text) (code : Code) : Fragment :=
  ⟨.member, code.text unit⟩

def peer (unit : Text) (code : Code) : Fragment :=
  ⟨.peer, code.text unit⟩

end Fragment

end StyleMacros
