import StyleMacros.Text.Basic
import StyleMacros.Text.CaseRuns

/-!
# Letter case

The full Unicode mappings of one character to lower and upper case, which may give several
characters, and the change of a name's first character by which member names are derived from
type names.
-/

set_option autoImplicit false

namespace StyleMacros

def CaseRun.image? (run : CaseRun) (code : Nat) : Option Nat :=
  if run.first ≤ code ∧ code ≤ run.last ∧ (code - run.first) % run.step = 0 then
    some (run.target + (code - run.first))
  else none

def caseImage (expansions : List (Nat × List Nat)) (runs : List CaseRun) (code : Nat) : List Nat :=
  match runs.findSome? (fun run => run.image? code) with
  | some image => [image]
  | none =>
    match expansions.lookup code with
    | some images => images
    | none => [code]

def lowercase (char : Char) : Text :=
  (caseImage lowercaseExpansions lowercaseRuns char.toNat).map Char.ofNat

def uppercase (char : Char) : Text :=
  (caseImage uppercaseExpansions uppercaseRuns char.toNat).map Char.ofNat

/-- The lower case of a letter `A` to `Z`; every other character stays. -/
def asciiLowercase (char : Char) : Char :=
  if 'A' ≤ char ∧ char ≤ 'Z' then Char.ofNat (char.toNat + 32) else char

namespace Text

/-- The name with its first character in lower case: `Title` gives `title`. -/
def lowerFirst : Text → Text
  | [] => []
  | head :: rest => lowercase head ++ rest

def upperFirst : Text → Text
  | [] => []
  | head :: rest => uppercase head ++ rest

def article : Text → Text
  | [] => "a"
  | head :: _ => if asciiLowercase head ∈ ['a', 'e', 'i', 'o', 'u'] then "an" else "a"

end Text

end StyleMacros
