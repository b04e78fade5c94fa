import StyleMacros.Text.Basic

/-!
# JSON texts

Objects keep the order of their members. A text has one element or member a line, two blanks
deeper than what holds it, and an empty array or object stays on its line.
-/

set_option autoImplicit false

namespace StyleMacros

inductive JsonValue where
  | null
  | number (value : Nat)
  | string (text : Text)
  | array (elements : List JsonValue)
  | object (members : List (Text × JsonValue))

namespace JsonValue

/-! ## Strings -/

def escaped (character : Char) : Text :=
  match character with
  | '"' => ['\\', '"']
  | '\\' => ['\\', '\\']
  | '\n' => ['\\', 'n']
  | '\r' => ['\\', 'r']
  | '\t' => ['\\', 't']
  | '\x08' => ['\\', 'b']
  | '\x0c' => ['\\', 'f']
  | other =>
    if other.toNat < 0x20 then
      ['\\', 'u', '0', '0', Nat.digitChar (other.toNat / 16), Nat.digitChar (other.toNat % 16)]
    else [other]

def stringText (text : Text) : Text :=
  '"' :: text.flatMap escaped ++ ['"']

/-! ## Layout -/

def newline (depth : Nat) : Text :=
  '\n' :: List.replicate (2 * depth) ' '

def enclosed (opening closing : Char) (depth : Nat) : List Text → Text
  | [] => [opening, closing]
  | items =>
    opening :: newline (depth + 1) ++ Text.join (',' :: newline (depth + 1)) items ++
      newline depth ++ [closing]

mutual

def textAt (depth : Nat) : JsonValue → Text
  | .null => "null"
  | .number value => Text.ofNat value
  | .string text => stringText text
  | .array elements => enclosed '[' ']' depth (elementTexts (depth + 1) elements)
  | .object members => enclosed '\x7b' '\x7d' depth (memberTexts (depth + 1) members)

def elementTexts (depth : Nat) : List JsonValue → List Text
  | [] => []
  | value :: rest => textAt depth value :: elementTexts depth rest

def memberTexts (depth : Nat) : List (Text × JsonValue) → List Text
  | [] => []
  | (key, value) :: rest =>
    (stringText key ++ ": ".toList ++ textAt depth value) :: memberTexts depth rest

end

def text (value : JsonValue) : Text :=
  textAt 0 value

/-! ## Sorted members -/

def insertMember (member : Text × JsonValue) :
    List (Text × JsonValue) → List (Text × JsonValue)
  | [] => [member]
  | head :: rest =>
    if member.1 ≤ head.1 then member :: head :: rest else head :: insertMember member rest

mutual

def sorted : JsonValue → JsonValue
  | .array elements => .array (sortedElements elements)
  | .object members => .object (sortedMembers members)
  | other => other

def sortedElements : List JsonValue → List JsonValue
  | [] => []
  | value :: rest => sorted value :: sortedElements rest

def sortedMembers : List (Text × JsonValue) → List (Text × JsonValue)
  | [] => []
  | (key, value) :: rest => insertMember (key, sorted value) (sortedMembers rest)

end

/-! ## Building values -/

def optional {Item : Type} (encode : Item → JsonValue) : Option Item → JsonValue
  | some item => encode item
  | none => .null

def strings (texts : List Text) : JsonValue :=
  .array (texts.map .string)

end JsonValue

end StyleMacros
