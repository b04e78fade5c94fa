import StyleMacros.Text.Basic
import StyleMacros.Text.IdentifierRanges

/-!
# Identifiers

An identifier starts with an underscore or a character of `XID_Start` and goes on with
characters of `XID_Continue`. `identifier?` reads one from the head of a text and
`isIdentifier` asks whether a whole text is one.
-/

set_option autoImplicit false

namespace StyleMacros

def inRanges (code : Nat) : List (Nat × Nat) → Bool
  | [] => false
  | (first, last) :: rest => first ≤ code && (code ≤ last || inRanges code rest)

/-- The Unicode property `XID_Start`. -/
def isIdentifierLetter (char : Char) : Bool :=
  inRanges char.toNat identifierStartRanges

def isIdentifierStart (char : Char) : Bool :=
  char = '_' || isIdentifierLetter char

/-- The Unicode property `XID_Continue`, to which the underscore belongs. -/
def isIdentifierContinue (char : Char) : Bool :=
  isIdentifierStart char || inRanges char.toNat identifierContinueRanges

theorem isIdentifierContinue_of_isIdentifierStart (char : Char)
    (starts : isIdentifierStart char = true) : isIdentifierContinue char = true := by
  simp [isIdentifierContinue, starts]

namespace Text

/-- The longest identifier at the head of the text, and what follows it. -/
def identifier? : Text → Option (Text × Text)
  | [] => none
  | head :: rest =>
    if isIdentifierStart head then
      some (head :: rest.takeWhile isIdentifierContinue, rest.dropWhile isIdentifierContinue)
    else none

def isIdentifier : Text → Bool
  | [] => false
  | head :: rest => isIdentifierStart head && rest.all isIdentifierContinue

theorem append_of_identifier? {text name rest : Text} (success : identifier? text = some (name, rest)) :
    name ++ rest = text := by
  cases text with
  | nil => simp [identifier?] at success
  | cons head tail =>
      by_cases starts : isIdentifierStart head = true
      · simp only [identifier?, starts, if_true, Option.some.injEq, Prod.mk.injEq] at success
        obtain ⟨rfl, rfl⟩ := success
        simp [List.takeWhile_append_dropWhile]
      · simp [identifier?, starts] at success

/-- The word `word`, standing as a whole identifier at the head of the text. -/
def afterWord? (text word : Text) : Option Text :=
  match identifier? text with
  | some (name, rest) => if name = word then some rest else none
  | none => none

end Text

end StyleMacros
