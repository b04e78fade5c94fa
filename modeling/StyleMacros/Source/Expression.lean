import StyleMacros.Source.Escape
import StyleMacros.Source.Sequence
import StyleMacros.Source.Tree

/-!
# Argument expressions

An argument is a string literal or an array when such a literal is all that stands before the
next delimiter; otherwise it is kept as it is written, up to that delimiter. Every reader is
given the size of the whole source, from which it derives spans.
-/

set_option autoImplicit false

namespace StyleMacros

def interpolatesWithin : Nat → Text → Bool
  | 0, _ => false
  | fuel + 1, text =>
    match (Region.interpolationOpenings text).findSome? (fun opened => opened.1.finish? opened.2) with
    | some _ => true
    | none =>
      match Region.literal.plain text with
      | some rest => interpolatesWithin fuel rest
      | none => false

def endsExpression : Text → Bool
  | head :: _ => head ∈ [',', ')', ']']
  | [] => false

/-- A literal counts only if trivia and a delimiter follow; the trivia belongs to its span. -/
def literalEnd? (rest : Text) : Option Text :=
  let behind := skipTrivia rest
  if endsExpression behind then some behind else none

def readString (text : Text) : Option (Text × Bool × Text) :=
  match text with
  | '"' :: content =>
    (Region.literal.finish? content).map fun rest =>
      (unescape (Text.before content (Region.literal.afterContent content)),
        interpolatesWithin content.length content, rest)
  | _ => none

def readArrayLiteral (total : Nat) (readElement : Text → Option (Expression × Text)) (text : Text) :
    Option (Expression × Text) := do
  let '[' :: content := text | none
  let (elements, rest) ← readClosedList readElement ']' content
  let behind ← literalEnd? rest
  return (.array elements (.between total text behind), behind)

def readStringLiteral (total : Nat) (text : Text) : Option (Expression × Text) := do
  let (value, interpolated, rest) ← readString text
  let behind ← literalEnd? rest
  return (.string value interpolated (.between total text behind), behind)

def readOtherValue (total : Nat) (text : Text) : Option (Expression × Text) :=
  let behind := Region.value.afterContent text
  if behind.length < text.length then
    some (.other (text.before behind).trim (.between total text behind), behind)
  else none

/-- One unit of fuel is spent for each level of nested arrays. -/
def readExpressionWithin (total : Nat) : Nat → Text → Option (Expression × Text)
  | 0, _ => none
  | fuel + 1, text =>
    readArrayLiteral total (readExpressionWithin total fuel) text <|>
      readStringLiteral total text <|>
      readOtherValue total text

def readExpression (total : Nat) (text : Text) : Option (Expression × Text) :=
  readExpressionWithin total (text.length + 1) text

end StyleMacros
