import StyleMacros.Catalog
import StyleMacros.Expansion.File
import StyleMacros.Path
import StyleMacros.Report.Ink
import StyleMacros.Report.LineDiff

/-!
# Listings

What the commands show to a reader: the expansion of a file, the state of a generated file, how
it differs from a fresh one, and the catalog.
-/

set_option autoImplicit false

namespace StyleMacros

/-! ## Expansions -/

def FragmentRole.title : FragmentRole → Text
  | .member => "// member"
  | .peer => "// peer"

def Fragment.listing (coloured : Bool) (fragment : Fragment) : Text :=
  Text.asLine (Ink.paint ⟨.cyan, false⟩ coloured fragment.role.title) ++ Text.asLine fragment.text

def SiteExpansion.title (declaration : Declaration) (invocations : List Invocation) : Text :=
  let names := Text.join [' '] (invocations.map fun invocation => invocation.name.display)
  "// --- " ++ declaration.kind.keyword.text ++ " " ++ declaration.name ++ ": " ++ names ++ " ---"

def SiteExpansion.listing? (coloured : Bool) (site : SiteExpansion) : Option Text :=
  match site.isOk, site.declaration with
  | true, some declaration =>
    let title := SiteExpansion.title declaration site.invocations
    some (Text.asLine (Ink.paint ⟨.yellow, true⟩ coloured title) ++
      site.fragments.flatMap (Fragment.listing coloured))
  | _, _ => none

def FileExpansion.listing (coloured : Bool) (expansion : FileExpansion) : Text :=
  Text.join (Text.asLine []) (expansion.sites.filterMap (SiteExpansion.listing? coloured))

/-! ## Generated files -/

inductive OutputState where
  | generated | fresh | stale | missing
  deriving DecidableEq

namespace OutputState

def label : OutputState → Text
  | .generated => " generated"
  | .fresh => "     fresh"
  | .stale => "     stale"
  | .missing => "   missing"

def colour : OutputState → Colour
  | .generated | .fresh => .green
  | .stale | .missing => .red

def listing (state : OutputState) (coloured : Bool) (path : Path) : Text :=
  Text.asLine (Ink.paint ⟨state.colour, true⟩ coloured state.label ++ ' ' :: path.text)

end OutputState

namespace LineDiff

def Mark.sign : Mark → Char
  | .same => ' '
  | .removed => '-'
  | .added => '+'

def Mark.ink? : Mark → Option Ink
  | .same => none
  | .removed => some { colour := .red }
  | .added => some { colour := .green }

def runListing (coloured : Bool) (run : List (Mark × Text)) : Text :=
  let body := run.flatMap fun (mark, text) => Text.asLine (mark.sign :: text)
  match run.head?.bind fun (mark, _) => mark.ink? with
  | some ink => ink.paint coloured body
  | none => body

def listing (coloured : Bool) (old fresh : Text) : Text :=
  (between old fresh).flatMap (runListing coloured)

end LineDiff

/-! ## The catalog -/

def CatalogEntry.listing (coloured : Bool) (entry : CatalogEntry) : Text :=
  let names (title : Text) (names : List Text) : Text :=
    if names = [] then [] else Text.asLine (title ++ Text.join [',', ' '] names)
  Text.asLine (Ink.paint ⟨.green, true⟩ coloured entry.signature) ++
    Text.asLine ("    attaches to: " ++ entry.attachesTo) ++
    Text.asLine ("    " ++ entry.summary) ++
    names "    members: " entry.members ++
    names "    peers: " entry.peers

end StyleMacros
