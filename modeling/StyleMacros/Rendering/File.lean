import StyleMacros.Expansion.File
import StyleMacros.Rendering.Edit
import StyleMacros.Rendering.Line

/-!
# Rendering of an expanded source text

The macro attributes go, members are put at the end of the body, and peers behind the
declaration and a comment that trails it. All other text stays as it is.
-/

set_option autoImplicit false

namespace StyleMacros

structure RenderOptions where
  /-- One level of indentation. -/
  unit : Text := indentUnit 4
  /-- The first line of the output, which an empty line follows. -/
  header : Option Text := none

def RenderOptions.lead (options : RenderOptions) : Text :=
  match options.header with
  | some header => header.trimEnd ++ ['\n', '\n']
  | none => []

/-! ## Attributes -/

/-- The removal of an attribute. One that is alone on its line takes the line with it, another
one the blanks behind it. -/
def removalEdit (source : Text) (span : Span) : Edit :=
  let after := source.lineAfter span.stop
  if (source.lineBefore span.start).isBlank && after.isBlank then
    ⟨source.lineStart span.start, source.nextLine span.stop, []⟩
  else
    ⟨span.start, span.stop + Text.size (after.takeWhile isInlineBlank), []⟩

/-! ## Members -/

def stackedFragments (lead : Text) (fragments : List Fragment) : Text :=
  Text.join ['\n', '\n'] (fragments.map fun fragment => fragment.text.indentLines lead)

/-- The insertion of members at the end of a body, whose last blanks it replaces. -/
def membersEdit (source : Text) (body : Span) (outer unit : Text) (members : List Fragment) : Edit :=
  let block := stackedFragments (outer ++ unit) members
  let kept := (body.text source).trimEnd
  if kept = [] then ⟨body.start, body.stop, '\n' :: block ++ '\n' :: outer⟩
  else ⟨body.start + kept.size, body.stop, '\n' :: '\n' :: block ++ '\n' :: outer⟩

/-! ## Peers -/

def isTrailingComment (text : Text) : Bool :=
  (Text.after? "//" text).isSome || ((Text.after? "/*" text).isSome && text.endsWith "*/")

/-- Where peers go: behind the declaration, or behind a comment that trails it. -/
def peerAnchor (source : Text) (stop : Nat) : Nat :=
  let rest := (source.lineAfter stop).trimEnd
  if isTrailingComment rest.trimStart then stop + rest.size else stop

def peersEdit (source : Text) (stop : Nat) (outer : Text) (peers : List Fragment) : Edit :=
  let anchor := peerAnchor source stop
  ⟨anchor, anchor, '\n' :: '\n' :: stackedFragments outer peers⟩

/-! ## Sites and files -/

def SiteExpansion.edits (site : SiteExpansion) (source unit : Text) : List Edit :=
  site.macroSpans.map (removalEdit source) ++
    match site.declaration with
    | none => []
    | some declaration =>
      let outer := source.lineIndent site.span.start
      (match site.body, site.members with
        | some body, first :: rest => [membersEdit source body outer unit (first :: rest)]
        | _, _ => []) ++
      match site.peers with
      | [] => []
      | first :: rest => [peersEdit source declaration.span.stop outer (first :: rest)]

namespace FileExpansion

def edits (expansion : FileExpansion) (source unit : Text) : List Edit :=
  expansion.sites.flatMap fun site => site.edits source unit

def render (expansion : FileExpansion) (source : Text) (options : RenderOptions) : Option Text :=
  if expansion.hasErrors then none
  else some (options.lead ++ Edit.apply (expansion.edits source options.unit) source)

end FileExpansion

end StyleMacros
