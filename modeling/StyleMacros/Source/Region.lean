import StyleMacros.Text.Blank

/-!
# Regions

A region is a stretch of source text in which characters are read in a way of their own: a
comment, a string literal, what stands between brackets, or the part of a declaration up to a
delimiter. Regions nest. What a region holds at the head of a text is decided in this order: an
inner region that closes, a plain piece, the end of the region's content. An opening whose
region never closes counts as plain characters where those are allowed.
-/

set_option autoImplicit false

namespace StyleMacros

inductive Region where
  /-- Between the two ends of a block comment, which nests. -/
  | comment
  /-- Between single quotes of a one-line string. -/
  | literal
  /-- Between triple quotes. -/
  | multiline
  /-- Between the parentheses of an interpolation. -/
  | interpolation
  | round
  | square
  | curly
  | angle
  /-- The body of a declaration: braces nest, other brackets do not count. -/
  | body
  /-- An argument that is no literal, up to a comma or a closing bracket. -/
  | value
  /-- The constraint of a generic parameter. -/
  | constraint
  /-- The requirements behind `where`, up to the body. -/
  | requirements
  deriving DecidableEq

namespace Region

/-! ## Openings -/

/-- The strings that may open here; three quotes are tried before one. -/
def quoteOpenings : Text → List (Region × Text)
  | '"' :: '"' :: '"' :: rest => [(.multiline, rest), (.literal, '"' :: '"' :: rest)]
  | '"' :: rest => [(.literal, rest)]
  | _ => []

def commentOpenings : Text → List (Region × Text)
  | '/' :: '*' :: rest => [(.comment, rest)]
  | _ => []

def roundOpenings : Text → List (Region × Text)
  | '(' :: rest => [(.round, rest)]
  | _ => []

def squareOpenings : Text → List (Region × Text)
  | '[' :: rest => [(.square, rest)]
  | _ => []

def curlyOpenings : Text → List (Region × Text)
  | '\x7b' :: rest => [(.curly, rest)]
  | _ => []

def angleOpenings : Text → List (Region × Text)
  | '<' :: rest => [(.angle, rest)]
  | _ => []

def interpolationOpenings : Text → List (Region × Text)
  | '\\' :: '(' :: rest => [(.interpolation, rest)]
  | _ => []

/-- The inner regions that may open at the head of a text, each with the text behind its
opening, in the order in which they are tried. -/
def openings (region : Region) (text : Text) : List (Region × Text) :=
  match region with
  | .comment => commentOpenings text
  | .literal => interpolationOpenings text
  | .multiline => []
  | .interpolation => quoteOpenings text ++ roundOpenings text
  | .round | .square | .curly =>
    quoteOpenings text ++ commentOpenings text ++ roundOpenings text ++ squareOpenings text ++
      curlyOpenings text
  | .angle => angleOpenings text
  | .body => quoteOpenings text ++ commentOpenings text ++ curlyOpenings text
  | .value =>
    roundOpenings text ++ squareOpenings text ++ curlyOpenings text ++ quoteOpenings text
  | .constraint => angleOpenings text ++ roundOpenings text ++ squareOpenings text
  | .requirements => roundOpenings text ++ squareOpenings text ++ angleOpenings text

/-! ## Plain pieces -/

def otherThan (stops : List Char) : Text → Option Text
  | [] => none
  | head :: rest => if head ∈ stops then none else some rest

def afterLine (text : Text) : Text :=
  text.dropWhile (fun char => !isLineBreak char)

def lineCommentOr (stops : List Char) : Text → Option Text
  | '/' :: '/' :: rest => some (afterLine rest)
  | text => otherThan stops text

def escapeOr (stops : List Char) : Text → Option Text
  | '\\' :: _ :: rest => some rest
  | text => otherThan stops text

def arrowOr (stops : List Char) : Text → Option Text
  | '-' :: '>' :: rest => some rest
  | text => otherThan stops text

def plain (region : Region) (text : Text) : Option Text :=
  match region with
  | .comment =>
    match text with
    | '*' :: '/' :: _ => none
    | _ => otherThan [] text
  | .literal => escapeOr ['"', '\\', '\n', '\r'] text
  | .multiline =>
    match text with
    | '"' :: '"' :: '"' :: _ => none
    | _ => escapeOr [] text
  | .interpolation => otherThan [')'] text
  | .round | .square | .curly => lineCommentOr [')', ']', '\x7d'] text
  | .angle => arrowOr ['>', '<'] text
  | .body => lineCommentOr ['\x7b', '\x7d'] text
  | .value => otherThan [',', ')', ']'] text
  | .constraint => arrowOr [',', '>', '<', '\x7b'] text
  | .requirements => otherThan ['\x7b'] text

/-! ## Content and closing -/

/-- The closing mark. A region that only a delimiter of something else ends has none. -/
def closing : Region → Option Text
  | .comment => some "*/"
  | .literal => some "\""
  | .multiline => some "\"\"\""
  | .interpolation => some ")"
  | .round => some ")"
  | .square => some "]"
  | .curly => some ['\x7d']
  | .angle => some ">"
  | .body => some ['\x7d']
  | .value | .constraint | .requirements => none

def afterClosing (region : Region) (text : Text) : Option Text :=
  region.closing.bind (fun mark => Text.after? mark text)

/-- The text behind the region's content. One unit of fuel is spent for each piece and each
level of nesting, and every piece has a character, so the length of the text is enough. -/
def contentWithin : Nat → Region → Text → Text
  | 0, _, text => text
  | fuel + 1, region, text =>
    match (region.openings text).findSome?
        (fun opened => opened.1.afterClosing (contentWithin fuel opened.1 opened.2)) with
    | some rest => contentWithin fuel region rest
    | none =>
      match region.plain text with
      | some rest => contentWithin fuel region rest
      | none => text

def afterContent (region : Region) (text : Text) : Text :=
  region.contentWithin text.length text

/-- The text behind the region and its closing mark, for a text from behind the opening on. -/
def finish? (region : Region) (text : Text) : Option Text :=
  region.afterClosing (region.afterContent text)

def afterQuoted? (text : Text) : Option Text :=
  (quoteOpenings text).findSome? (fun opened => opened.1.finish? opened.2)

end Region

end StyleMacros
