import StyleMacros.Source.Attribute
import StyleMacros.Source.Header

/-!
# Sites of a source text

The sites of a text are found from left to right. What is neither a site nor trivia is passed
over, string literals as a whole, so that an attribute in a comment or a string is not seen.
-/

set_option autoImplicit false

namespace StyleMacros

def readSite (total : Nat) (text : Text) : Option (Site × Text) :=
  match readAttribute total text with
  | none => none
  | some (first, behind) =>
    let (others, rest) := readMany (readAttribute total) behind.length behind
    let attributes := first :: others
    if attributes.any (fun written => written.macroName?.isSome) then
      let (target, rest) := readTarget total (skipTrivia rest)
      some (⟨attributes, target, .between total text rest⟩, rest)
    else none

def afterSkipped (text : Text) : Text :=
  (Region.afterQuoted? text).getD (text.drop 1)

def readSitesWithin (total : Nat) : Nat → Text → List Site
  | 0, _ => []
  | fuel + 1, text =>
    match skipTrivia text with
    | [] => []
    | head :: rest =>
      match readSite total (head :: rest) with
      | some (site, behind) => site :: readSitesWithin total fuel behind
      | none => readSitesWithin total fuel (afterSkipped (head :: rest))

def readSites (source : Text) : List Site :=
  readSitesWithin source.size (source.length + 1) source

end StyleMacros
