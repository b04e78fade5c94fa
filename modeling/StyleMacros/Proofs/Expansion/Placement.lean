import StyleMacros.Expansion.File
import StyleMacros.Proofs.Source.Placement

/-!
# Where the parts of an expanded site lie

An expansion keeps the spans of the sites it is made of. Taking errors out and dropping sites,
in any order, leaves them where they are.
-/

set_option autoImplicit false

namespace StyleMacros

/-! ## Placed expansions -/

/-- The written declaration lies in the site, behind its attributes, and has its body. -/
structure SiteExpansion.Encloses (site : SiteExpansion) (source : Text)
    (written : SourceDeclaration) : Prop where
  placed : written.Placed source
  body : site.body = some written.body
  starts : site.span.start ≤ written.span.start
  stops : written.span.stop ≤ site.span.stop
  behindMacros : ∀ span ∈ site.macroSpans, span.stop ≤ written.span.start

/-- The spans of an expanded site lie as those of a written one. -/
structure SiteExpansion.Placed (site : SiteExpansion) (source : Text) : Prop where
  fits : site.span.Fits source
  macros : ∀ span ∈ site.macroSpans,
    (∃ written : Attribute, written.Placed source ∧ written.span = span) ∧
      site.span.start ≤ span.start ∧ span.stop ≤ site.span.stop
  ordered : site.macroSpans.Pairwise fun earlier later => earlier.stop ≤ later.start
  body : ∀ body, site.body = some body → body.Fits source
  declaration : ∀ declaration, site.declaration = some declaration →
    ∃ written, declaration.span = written.span ∧ site.Encloses source written

theorem SiteExpansion.Placed.stop_boundary {site : SiteExpansion} {source : Text}
    (placed : site.Placed source) {declaration : Declaration}
    (declared : site.declaration = some declaration) :
    source.IsBoundary declaration.span.stop := by
  obtain ⟨written, spanExact, encloses⟩ := placed.declaration declaration declared
  exact spanExact ▸ encloses.placed.fits.stop

structure FileExpansion.Placed (expansion : FileExpansion) (source : Text) : Prop where
  sites : ∀ site ∈ expansion.sites, site.Placed source
  ordered : expansion.sites.Pairwise fun earlier later => earlier.span.stop ≤ later.span.start

theorem Site.annotated_success_yields_declaration {site : Site}
    {annotated : AnnotatedDeclaration} (success : site.annotated = .ok annotated) :
    ∃ written, site.target = .declaration written ∧
      annotated.declaration = written.declaration := by
  unfold Site.annotated at success
  split at success
  · cases success
  · rename_i first _ _ _
    split at success
    · cases success
    · unfold Site.declaration at success
      cases target : site.target with
      | declaration written =>
          rw [target] at success
          refine ⟨written, rfl, ?_⟩
          cases listed : site.macros.mapM (fun used => used.2.invocation used.1) with
          | error fault =>
              rw [listed] at success
              cases success
          | ok invocations =>
              rw [listed] at success
              cases success
              rfl
      | word word span =>
          rw [target] at success
          simp only at success
          split at success <;> cases success
      | nothing =>
          rw [target] at success
          cases success

theorem Site.mem_macros {site : Site} {name : MacroName} {written : Attribute}
    (member : (name, written) ∈ site.macros) : written ∈ site.attributes := by
  obtain ⟨found, inside, exact⟩ := List.mem_filterMap.mp member
  obtain ⟨name', _, same⟩ := Option.map_eq_some_iff.mp exact
  cases same
  exact inside

theorem Site.macros_pairwise {site : Site} {relation : Attribute → Attribute → Prop}
    (ordered : site.attributes.Pairwise relation) :
    site.macros.Pairwise fun earlier later => relation earlier.2 later.2 := by
  refine List.Pairwise.filterMap _ ?_ ordered
  intro earlier later related first firstExact second secondExact
  obtain ⟨name, _, rfl⟩ := Option.map_eq_some_iff.mp firstExact
  obtain ⟨name', _, rfl⟩ := Option.map_eq_some_iff.mp secondExact
  exact related

theorem Site.expand_span (site : Site) (settings : ExpansionSettings) (source : SourceText) :
    (site.expand settings source).span = site.span := by
  unfold Site.expand
  split <;> rfl

theorem Site.expand_macroSpans (site : Site) (settings : ExpansionSettings)
    (source : SourceText) :
    (site.expand settings source).macroSpans = site.macros.map fun used => used.2.span := by
  unfold Site.expand
  split <;> rfl

theorem Site.expand_body (site : Site) (settings : ExpansionSettings) (source : SourceText) :
    (site.expand settings source).body = site.body? := by
  unfold Site.expand
  split <;> rfl

theorem Site.expand_declaration {site : Site} {settings : ExpansionSettings}
    {source : SourceText} {declaration : Declaration}
    (declared : (site.expand settings source).declaration = some declaration) :
    ∃ written, site.target = .declaration written ∧ declaration = written.declaration := by
  unfold Site.expand at declared
  split at declared
  · cases declared
  · rename_i annotated success
    obtain ⟨written, target, exact⟩ := Site.annotated_success_yields_declaration success
    exact ⟨written, target, (Option.some.inj declared).symm.trans exact⟩

theorem Site.exists_declaration_of_isOk {site : Site} {settings : ExpansionSettings}
    {source : SourceText} (sound : (site.expand settings source).isOk = true) :
    ∃ declaration, (site.expand settings source).declaration = some declaration := by
  unfold Site.expand at sound ⊢
  split
  · rename_i failure
    rw [failure] at sound
    simp [SiteExpansion.isOk] at sound
  · exact ⟨_, rfl⟩

theorem Site.expand_placed {site : Site} {source : SourceText} (settings : ExpansionSettings)
    (placed : site.Placed source.content) :
    (site.expand settings source).Placed source.content where
  fits := by
    rw [Site.expand_span]
    exact placed.fits
  macros := by
    rw [Site.expand_macroSpans, Site.expand_span]
    intro span member
    obtain ⟨⟨name, written⟩, used, rfl⟩ := List.mem_map.mp member
    obtain ⟨writtenPlaced, bounds⟩ := placed.attributes written (Site.mem_macros used)
    exact ⟨⟨written, writtenPlaced, rfl⟩, bounds⟩
  ordered := by
    rw [Site.expand_macroSpans]
    exact List.pairwise_map.mpr (Site.macros_pairwise placed.ordered)
  body := by
    rw [Site.expand_body]
    intro body found
    unfold Site.body? at found
    split at found
    · rename_i written target
      cases Option.some.inj found
      exact (placed.declaration written target).body
    · cases found
  declaration := by
    intro declaration declared
    obtain ⟨written, target, rfl⟩ := Site.expand_declaration declared
    obtain ⟨_, behind, inside⟩ := placed.target written.span (by rw [target]; rfl)
    exact ⟨written, rfl, {
      placed := placed.declaration written target
      body := by rw [Site.expand_body, Site.body?, target]
      starts := by
        rw [Site.expand_span]
        obtain ⟨first, others, attributes, start⟩ := placed.starts
        have listed : first ∈ site.attributes := by
          rw [attributes]
          exact List.mem_cons_self
        have forward := (placed.attributes first listed).1.fits.ordered
        rw [← start]
        exact forward.trans (behind first listed)
      stops := by
        rw [Site.expand_span]
        exact inside
      behindMacros := by
        rw [Site.expand_macroSpans]
        intro span member
        obtain ⟨⟨name, used⟩, usedMember, rfl⟩ := List.mem_map.mp member
        exact behind used (Site.mem_macros usedMember) }⟩

theorem FileExpansion.ofSource_placed (source : SourceText) (settings : ExpansionSettings) :
    (FileExpansion.ofSource source settings).Placed source.content := by
  obtain ⟨placed, ordered⟩ := readSites_placed source.content
  refine ⟨?_, ?_⟩
  · intro site member
    obtain ⟨written, inside, rfl⟩ := List.mem_map.mp member
    exact Site.expand_placed settings (placed written inside)
  · refine List.pairwise_map.mpr (ordered.imp ?_)
    intro earlier later before
    rw [Site.expand_span, Site.expand_span]
    exact before

/-! ## Changes of an expansion -/

/-- What may happen to an expansion before it is rendered. -/
inductive ExpansionStep where
  | takeErrors
  | dropSite (index : Nat)
  deriving DecidableEq

namespace FileExpansion

def step (expansion : FileExpansion) : ExpansionStep → FileExpansion
  | .takeErrors => expansion.takeErrors.2
  | .dropSite index => expansion.dropSite index

def run (expansion : FileExpansion) (steps : List ExpansionStep) : FileExpansion :=
  steps.foldl step expansion

theorem step_placed {expansion : FileExpansion} {source : Text}
    (placed : expansion.Placed source) (change : ExpansionStep) :
    (expansion.step change).Placed source := by
  cases change with
  | takeErrors =>
      refine ⟨?_, List.pairwise_map.mpr placed.ordered⟩
      intro site member
      obtain ⟨earlier, inside, rfl⟩ := List.mem_map.mp member
      have kept := placed.sites earlier inside
      refine ⟨kept.fits, kept.macros, kept.ordered, kept.body, ?_⟩
      intro declaration declared
      obtain ⟨written, spanExact, encloses⟩ := kept.declaration declaration declared
      exact ⟨written, spanExact, encloses.placed, encloses.body, encloses.starts, encloses.stops,
        encloses.behindMacros⟩
  | dropSite index =>
      refine ⟨?_, placed.ordered.sublist (List.eraseIdx_sublist _ _)⟩
      intro site member
      exact placed.sites site (List.mem_of_mem_eraseIdx member)

theorem run_placed {expansion : FileExpansion} {source : Text}
    (placed : expansion.Placed source) (steps : List ExpansionStep) :
    (expansion.run steps).Placed source := by
  induction steps generalizing expansion with
  | nil => exact placed
  | cons change rest inductionHypothesis => exact inductionHypothesis (step_placed placed change)

end FileExpansion

end StyleMacros
