import StyleMacros.Expansion.Invocation
import StyleMacros.Source.Annotated
import StyleMacros.Source.Site

/-!
# Expansion of a source text

Every site of a source text is expanded on its own. A site that cannot be used, or an
invocation that does not fit, leaves a diagnostic and adds nothing; the others are expanded all
the same.
-/

set_option autoImplicit false

namespace StyleMacros

structure SiteExpansion where
  span : Span
  /-- The attributes that rendering removes. -/
  macroSpans : List Span
  /-- The text between the braces, if the site has a declaration. -/
  body : Option Span
  declaration : Option Declaration
  invocations : List Invocation
  /-- What the invocations that fit add, in the order of the attributes. -/
  fragments : List Fragment
  errors : List Diagnostic

namespace SiteExpansion

def isOk (site : SiteExpansion) : Bool :=
  site.errors.isEmpty

def members (site : SiteExpansion) : List Fragment :=
  site.fragments.filter Fragment.isMember

def peers (site : SiteExpansion) : List Fragment :=
  site.fragments.filter Fragment.isPeer

/-- The fragments and the diagnostics of a declaration's invocations, each in order. -/
def outcomes (annotated : AnnotatedDeclaration) (settings : ExpansionSettings)
    (source : SourceText) : List Fragment × List Diagnostic :=
  annotated.invocations.foldr
    (fun invocation later =>
      match invocation.expand annotated.declaration settings source with
      | .ok fragments => (fragments ++ later.1, later.2)
      | .error diagnostic => (later.1, diagnostic :: later.2))
    ([], [])

end SiteExpansion

def Site.body? (site : Site) : Option Span :=
  match site.target with
  | .declaration written => some written.body
  | _ => none

def Site.expand (site : Site) (settings : ExpansionSettings) (source : SourceText) :
    SiteExpansion :=
  let macroSpans := site.macros.map fun used => used.2.span
  match site.annotated with
  | .error fault =>
    ⟨site.span, macroSpans, site.body?, none, [], [], [SiteFault.diagnostic fault source "lower"]⟩
  | .ok annotated =>
    let (fragments, errors) := SiteExpansion.outcomes annotated settings source
    ⟨site.span, macroSpans, site.body?, some annotated.declaration, annotated.invocations,
      fragments, errors⟩

structure FileExpansion where
  sites : List SiteExpansion

namespace FileExpansion

def ofSource (source : SourceText) (settings : ExpansionSettings) : FileExpansion :=
  ⟨(readSites source.content).map fun site => site.expand settings source⟩

def isEmpty (expansion : FileExpansion) : Bool :=
  expansion.sites.isEmpty

def errors (expansion : FileExpansion) : List Diagnostic :=
  expansion.sites.flatMap SiteExpansion.errors

def hasErrors (expansion : FileExpansion) : Bool :=
  expansion.sites.any fun site => !site.isOk

def fragmentCount (expansion : FileExpansion) : Nat :=
  (expansion.sites.flatMap SiteExpansion.fragments).length

/-- The diagnostics, and the expansion without them. -/
def takeErrors (expansion : FileExpansion) : List Diagnostic × FileExpansion :=
  (expansion.errors, ⟨expansion.sites.map fun site => { site with errors := [] }⟩)

/-- The expansion without one of its sites; an index that no site has changes nothing. -/
def dropSite (expansion : FileExpansion) (index : Nat) : FileExpansion :=
  ⟨expansion.sites.eraseIdx index⟩

end FileExpansion

end StyleMacros
