import StyleMacros.Source.Region

/-!
# Trivia

What may stand between two tokens: blanks, line comments, and block comments that are closed.
-/

set_option autoImplicit false

namespace StyleMacros

def skipTriviaWithin : Nat → Text → Text
  | 0, text => text
  | _, [] => []
  | fuel + 1, head :: rest =>
    if isTokenBlank head then skipTriviaWithin fuel rest
    else
      match head, rest with
      | '/', '/' :: comment => skipTriviaWithin fuel (Region.afterLine comment)
      | '/', '*' :: comment =>
        match Region.comment.finish? comment with
        | some behind => skipTriviaWithin fuel behind
        | none => head :: rest
      | _, _ => head :: rest

def skipTrivia (text : Text) : Text :=
  skipTriviaWithin text.length text

end StyleMacros
