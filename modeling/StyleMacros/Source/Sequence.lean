import StyleMacros.Source.Trivia

/-!
# Sequences of source elements

A reader takes a text and answers with what it read and the text behind it. The readers here
repeat another reader; trivia between two elements counts only if the second element follows.
-/

set_option autoImplicit false

namespace StyleMacros

variable {Element : Type}

def readMany (read : Text → Option (Element × Text)) : Nat → Text → List Element × Text
  | 0, text => ([], text)
  | fuel + 1, text =>
    match read (skipTrivia text) with
    | some (first, rest) =>
      let others := readMany read fuel rest
      (first :: others.1, others.2)
    | none => ([], text)

def readFurther (read : Text → Option (Element × Text)) : Nat → Text → List Element × Text
  | 0, text => ([], text)
  | fuel + 1, text =>
    match skipTrivia text with
    | ',' :: behind =>
      match read (skipTrivia behind) with
      | some (first, rest) =>
        let others := readFurther read fuel rest
        (first :: others.1, others.2)
      | none => ([], text)
    | _ => ([], text)

def readSeparated (read : Text → Option (Element × Text)) (text : Text) :
    Option (List Element × Text) := do
  let (first, rest) ← read text
  let others := readFurther read rest.length rest
  return (first :: others.1, others.2)

/-- The text behind a comma that closes a list, or behind trivia alone. -/
def afterFinalComma (text : Text) : Text :=
  match skipTrivia text with
  | ',' :: behind => skipTrivia behind
  | behind => behind

/-- A list between two marks, empty or not, with a comma behind its last element or not. The
text starts behind the opening mark. -/
def readClosedList (read : Text → Option (Element × Text)) (close : Char) (text : Text) :
    Option (List Element × Text) :=
  let start := skipTrivia text
  let (elements, rest) :=
    match readSeparated read start with
    | some (elements, rest) => (elements, afterFinalComma rest)
    | none => ([], start)
  match rest with
  | head :: behind => if head = close then some (elements, behind) else none
  | [] => none

end StyleMacros
