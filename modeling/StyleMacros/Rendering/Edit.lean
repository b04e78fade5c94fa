import StyleMacros.Text.Basic

/-!
# Edits

An edit replaces a range of bytes. A set of edits is applied from left to right, in the order
of their ranges; one that begins inside a range already replaced is left out.
-/

set_option autoImplicit false

namespace StyleMacros

structure Edit where
  start : Nat
  stop : Nat
  text : Text
  deriving DecidableEq

namespace Edit

def le (left right : Edit) : Bool :=
  left.start < right.start || (left.start = right.start && left.stop ≤ right.stop)

def insertSorted (edit : Edit) : List Edit → List Edit
  | [] => [edit]
  | head :: rest =>
    if edit.le head then edit :: head :: rest else head :: insertSorted edit rest

/-- The edits in the order of their ranges; those with one range keep their order. -/
def sort (edits : List Edit) : List Edit :=
  edits.foldr insertSorted []

/-- The source from byte `cursor` on, with the edits applied. -/
def applyFrom (source : Text) (cursor : Nat) : List Edit → Text
  | [] => source.dropBytes cursor
  | edit :: rest =>
    if edit.start < cursor then applyFrom source cursor rest
    else source.slice cursor edit.start ++ edit.text ++ applyFrom source edit.stop rest

def apply (edits : List Edit) (source : Text) : Text :=
  applyFrom source 0 (sort edits)

end Edit

end StyleMacros
