import StyleMacros.Number.Double
import StyleMacros.Yaml.Token

/-!
# Values of scalars

A plain scalar is null, a truth value, a number or a string, by its spelling. A scalar in
quotes, or one in a block, is a string unless its tag says otherwise.
-/

set_option autoImplicit false

namespace StyleMacros.Yaml

inductive ScalarValue where
  | null
  | bool (value : Bool)
  /-- An integer of up to 64 bits. -/
  | integer (value : Int)
  /-- An integer of more than 64 bits and up to 128, with a sign or without. -/
  | wideInteger (value : Int)
  | real (value : Double)
  | string (text : Text)

/-! ## Spellings -/

def isNull (text : Text) : Bool :=
  ["null".toList, "Null".toList, "NULL".toList, "~".toList].contains text

def bool? (text : Text) : Option Bool :=
  if ["true".toList, "True".toList, "TRUE".toList].contains text then some true
  else if ["false".toList, "False".toList, "FALSE".toList].contains text then some false
  else none

def withoutPlus (text : Text) : Text :=
  match text with
  | '+' :: rest => rest
  | _ => text

def startsWithSign (text : Text) : Bool :=
  text.head? = some '+' || text.head? = some '-'

def isZeroPadded (text : Text) : Bool :=
  let digits := if startsWithSign text then text.drop 1 else text
  match digits with
  | '0' :: rest => rest ≠ [] && rest.all Char.isDigit
  | _ => false

def basesByLetter : List (Text × Nat) :=
  [("0x", 16), ("0o", 8), ("0b", 2)]

/-- The number of digits behind a mark for their base, if there is such a mark; the inner
option is empty if no digits of that base follow. -/
def basedNumber? (text : Text) : Option (Option Nat) :=
  basesByLetter.findSome? fun (mark, base) => (Text.after? mark text).map (Text.number? base)

def natural? (text : Text) : Option Nat :=
  let body := withoutPlus text
  match basedNumber? body with
  | some number => number
  | none => if isZeroPadded text then none else Text.number? 10 body

def negated? (text : Text) : Option Nat :=
  match text with
  | '-' :: body =>
    match basedNumber? body with
    | some number => number
    | none => if isZeroPadded text then none else Text.number? 10 body
  | _ => none

def integer? (text : Text) : Option ScalarValue :=
  match natural? text, negated? text with
  | some number, _ =>
    if number < Nat.pow 2 64 then some (.integer number)
    else if number < Nat.pow 2 128 then some (.wideInteger number)
    else none
  | none, some number =>
    if number ≤ Nat.pow 2 63 then some (.integer (-(number : Int)))
    else if number ≤ Nat.pow 2 127 then some (.wideInteger (-(number : Int)))
    else none
  | none, none => none

def real? (text : Text) : Option Double :=
  let body := withoutPlus text
  if text.head? = some '+' && startsWithSign body then none
  else if [".inf".toList, ".Inf".toList, ".INF".toList].contains body then some (.infinite false)
  else if ["-.inf".toList, "-.Inf".toList, "-.INF".toList].contains text then some (.infinite true)
  else if [".nan".toList, ".NaN".toList, ".NAN".toList].contains text then some .nan
  else Double.ofDecimal? body

def ScalarValue.ofPlain (text : Text) : ScalarValue :=
  if text = [] || isNull text then .null
  else
    match bool? text, integer? text with
    | some value, _ => .bool value
    | none, some value => value
    | none, none =>
      match if isZeroPadded text then none else real? text with
      | some value => .real value
      | none => .string text

/-! ## Tags -/

def boolTag : Text := "tag:yaml.org,2002:bool"
def integerTag : Text := "tag:yaml.org,2002:int"
def realTag : Text := "tag:yaml.org,2002:float"
def nullTag : Text := "tag:yaml.org,2002:null"

/-- The value of a scalar, unless its tag asks for a type that its spelling is none of. -/
def scalarValue? (text : Text) (style : ScalarStyle) (tag : Option Text) : Option ScalarValue :=
  match tag with
  | none => some (if style = .plain then .ofPlain text else .string text)
  | some tag =>
    if tag = boolTag then (bool? text).map .bool
    else if tag = integerTag then integer? text
    else if tag = realTag then (real? text).map .real
    else if tag = nullTag then if isNull text then some .null else none
    else if tag.head? = some '!' && style = .plain then some (.ofPlain text)
    else some (.string text)

end StyleMacros.Yaml
