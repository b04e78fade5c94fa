import StyleMacros.Yaml.Node
import StyleMacros.Yaml.Scalar

/-!
# Values of nodes

The value of a document whatever it is meant for. There is none if a tag does not fit, a number
is too wide, a mapping repeats a key, or the nodes nest too deep.
-/

set_option autoImplicit false

namespace StyleMacros.Yaml

inductive Value where
  | null
  | bool (value : Bool)
  | integer (value : Int)
  | real (value : Double)
  | string (text : Text)
  | sequence (items : List Value)
  | mapping (entries : List (Value × Value))
  | tagged (tag : Text) (value : Value)

def maximalDepth : Nat := 128

/-- Equality of values down to a depth; the order of a mapping's entries does not count. -/
def Value.same : Nat → Value → Value → Bool
  | _, .null, .null => true
  | _, .bool left, .bool right => left = right
  | _, .integer left, .integer right => left = right
  | _, .real left, .real right => left.same right
  | _, .string left, .string right => left = right
  | depth + 1, .sequence left, .sequence right =>
    left.length = right.length && (left.zip right).all fun (one, other) => same depth one other
  | depth + 1, .mapping left, .mapping right =>
    left.length = right.length && left.all fun (key, value) =>
      right.any fun (otherKey, other) => same depth key otherKey && same depth value other
  | depth + 1, .tagged leftTag left, .tagged rightTag right =>
    leftTag = rightTag && same depth left right
  | _, _, _ => false

def localTag? (tag : Option Text) : Option Text :=
  match tag with
  | some ('!' :: name) => some name
  | _ => none

/-- The value with the tag that the node carries; a tag needs a name. -/
def Value.tag? (tag : Option Text) (value : Value) : Option Value :=
  match localTag? tag with
  | none => some value
  | some name => if name = [] then none else some (.tagged name value)

def Value.ofScalar? : ScalarValue → Option Value
  | .null => some .null
  | .bool value => some (.bool value)
  | .integer value => some (.integer value)
  | .wideInteger _ => none
  | .real value => some (.real value)
  | .string text => some (.string text)

def hasDistinctKeys : List (Value × Value) → Bool
  | [] => true
  | (key, _) :: rest =>
    !rest.any (fun (other, _) => key.same (maximalDepth + 1) other) && hasDistinctKeys rest

def Node.value? : Nat → Node → Option Value
  | _, .scalar text style tag _ => do
    (← Value.ofScalar? (← scalarValue? text style tag)).tag? tag
  | 0, _ => none
  | depth + 1, .sequence items tag _ => do
    Value.tag? tag (.sequence (← items.mapM (value? depth)))
  | depth + 1, .mapping entries tag _ => do
    let entries ← entries.mapM fun (key, value) => do
      return (← value? depth key, ← value? depth value)
    guard (hasDistinctKeys entries)
    Value.tag? tag (.mapping entries)

def Node.hasValue (node : Node) : Bool :=
  (node.value? maximalDepth).isSome

end StyleMacros.Yaml
