import StyleMacros.Proofs.Expansion.Generated
import StyleMacros.Proofs.Source.Faults

/-!
# What becomes of every invocation

The sites of a source text are expanded one by one, and so are the invocations of a site. One that
fails leaves its diagnostic and nothing else; what the others add does not depend on it.
-/

set_option autoImplicit false

namespace StyleMacros

/-! ## One invocation -/

/-- The roles of what an accepted use adds, in order, to a declaration with so many generic
parameters. -/
def MacroName.roles (parameters : Nat) : MacroName → List FragmentRole
  | .style => List.replicate 3 .member ++ List.replicate 4 .peer
  | .registerStyle => [.member]
  | .convenienceModifier => [.member]
  | .component => List.replicate (3 + parameters) .member

/-- What an invocation adds to its site: its fragments if it fits its declaration, and otherwise
its diagnostic. -/
inductive Contributes (declaration : Declaration) (settings : ExpansionSettings)
    (source : SourceText) (invocation : Invocation) : List Fragment × List Diagnostic → Prop
  | adds {use : Use} {code : List Fragment}
      (fits : invocation.Fits declaration settings.targets use)
      (expanded : invocation.expand declaration settings source = .ok code)
      (roles : code.map Fragment.role =
        invocation.name.roles declaration.genericParameters.length) :
      Contributes declaration settings source invocation (code, [])
  | fails {diagnostic : Diagnostic} {message : Text}
      (unfit : ∀ use, ¬ invocation.Fits declaration settings.targets use)
      (expanded : invocation.expand declaration settings source = .error diagnostic)
      (kind : diagnostic.kind = .validation invocation.name message) :
      Contributes declaration settings source invocation ([], [diagnostic])

section Invocation

variable {invocation : Invocation} {declaration : Declaration} {settings : ExpansionSettings}
  {source : SourceText}

theorem Invocation.Fits.roles {use : Use} (fits : invocation.Fits declaration settings.targets use)
    (unit : Text) : (use.fragments unit declaration).map Fragment.role =
      invocation.name.roles declaration.genericParameters.length := by
  cases fits with
  | style name =>
      rw [name, Use.fragments, styleFragments, List.map_append, List.map_cons,
        configurationPeer_role]
      rfl
  | registerStyle name =>
      rw [name]
      rfl
  | convenienceModifier name =>
      rw [name]
      rfl
  | component name =>
      have slots : (componentSlots declaration).map (Fragment.role ∘
          slotClosure (AccessLevel.lead declaration.access)) =
            List.replicate declaration.genericParameters.length .member := by
        rw [componentSlots, List.map_map]
        exact List.map_const'
      rw [name, Use.fragments, componentFragments, List.map_append, List.map_append, List.map_map,
        slots]
      have last : List.replicate declaration.genericParameters.length FragmentRole.member ++
          [.member] = .member :: List.replicate declaration.genericParameters.length .member :=
        List.replicate_succ'.symm.trans List.replicate_succ
      simpa [MacroName.roles, Fragment.member, List.replicate_add, List.replicate_succ] using last

theorem Invocation.exists_fault_of_expand {diagnostic : Diagnostic}
    (failed : invocation.expand declaration settings source = .error diagnostic) :
    ∃ fault, invocation.use declaration settings.targets = .error fault ∧
      diagnostic = UseFault.diagnostic fault invocation.name source "validate" := by
  cases used : invocation.use declaration settings.targets with
  | ok use =>
      rw [Fits.expand_eq_ok (fits_of_use_eq_ok used) source] at failed
      cases failed
  | error fault =>
      simp only [expand, used, Except.error.injEq] at failed
      exact ⟨fault, rfl, failed.symm⟩

theorem Invocation.exists_contribution (invocation : Invocation) (declaration : Declaration)
    (settings : ExpansionSettings) (source : SourceText) :
    (∃ code, invocation.expand declaration settings source = .ok code ∧
      Contributes declaration settings source invocation (code, [])) ∨
    ∃ diagnostic, invocation.expand declaration settings source = .error diagnostic ∧
      Contributes declaration settings source invocation ([], [diagnostic]) := by
  cases expanded : invocation.expand declaration settings source with
  | ok code =>
      obtain ⟨use, fits, exact⟩ := exists_fits_of_expand expanded
      exact .inl ⟨code, rfl, .adds fits expanded (exact ▸ fits.roles settings.unit)⟩
  | error diagnostic =>
      obtain ⟨fault, used, rfl⟩ := exists_fault_of_expand expanded
      have unfit (use : Use) : ¬ invocation.Fits declaration settings.targets use := by
        intro fits
        rw [fits.use_eq_ok] at used
        cases used
      exact .inr ⟨_, rfl, .fails unfit expanded rfl⟩

/-! ## The invocations of one declaration -/

namespace SiteExpansion

variable {later : List Invocation}

theorem outcomes_cons_of_ok {code : List Fragment}
    (expanded : invocation.expand declaration settings source = .ok code) :
    outcomes ⟨declaration, invocation :: later⟩ settings source =
      (code ++ (outcomes ⟨declaration, later⟩ settings source).1,
        (outcomes ⟨declaration, later⟩ settings source).2) := by
  simp only [outcomes, List.foldr_cons, expanded]

theorem outcomes_cons_of_error {diagnostic : Diagnostic}
    (expanded : invocation.expand declaration settings source = .error diagnostic) :
    outcomes ⟨declaration, invocation :: later⟩ settings source =
      ((outcomes ⟨declaration, later⟩ settings source).1,
        diagnostic :: (outcomes ⟨declaration, later⟩ settings source).2) := by
  simp only [outcomes, List.foldr_cons, expanded]

theorem exists_contributions (invocations : List Invocation) (declaration : Declaration)
    (settings : ExpansionSettings) (source : SourceText) :
    ∃ contributions,
      List.Forall₂ (Contributes declaration settings source) invocations contributions ∧
        outcomes ⟨declaration, invocations⟩ settings source =
          (contributions.flatMap Prod.fst, contributions.flatMap Prod.snd) := by
  induction invocations with
  | nil => exact ⟨[], .nil, rfl⟩
  | cons invocation later inductionHypothesis =>
      obtain ⟨contributions, each, exact⟩ := inductionHypothesis
      rcases invocation.exists_contribution declaration settings source with
        ⟨code, expanded, adds⟩ | ⟨diagnostic, expanded, fails⟩
      · refine ⟨(code, []) :: contributions, .cons adds each, ?_⟩
        rw [outcomes_cons_of_ok expanded, exact]
        rfl
      · refine ⟨([], [diagnostic]) :: contributions, .cons fails each, ?_⟩
        rw [outcomes_cons_of_error expanded, exact]
        rfl

end SiteExpansion

end Invocation

/-! ## One site -/

theorem Site.denotes_of_annotated {site : Site} {annotated : AnnotatedDeclaration}
    (success : site.annotated = .ok annotated) :
    List.Forall₂ (fun used invocation => Attribute.Denotes used.1 used.2 invocation) site.macros
      annotated.invocations := by
  cases listed : site.macros with
  | nil =>
      unfold Site.annotated at success
      rw [listed] at success
      cases success
  | cons first others =>
      have readable : site.Readable := by
        by_contra other
        obtain ⟨used, malformed⟩ := exists_isFirstNot other
        rw [Site.annotated_of_malformed malformed] at success
        cases success
      obtain ⟨written, target, -⟩ := Site.annotated_success_yields_declaration success
      have literal : ∀ used ∈ site.macros, used.2.TakesLiterals := by
        by_contra mixed
        obtain ⟨_, _, _, _, _, _, _, _, refused, _⟩ :=
          Site.fails_of_argument listed readable target mixed
        rw [refused] at success
        cases success
      obtain ⟨found, understood, -, denotes⟩ :=
        Site.annotated_of_literals listed readable target literal
      cases understood.symm.trans success
      exact listed ▸ denotes

/-- What becomes of a site. If it cannot be used, it has the one diagnostic that says why, and
nothing else. Otherwise each of its macros contributes its fragments or its diagnostic. -/
inductive Site.ExpandsTo (site : Site) (settings : ExpansionSettings) (source : SourceText)
    (expansion : SiteExpansion) : Prop
  | fails {fault : Located SiteFault} (refused : site.annotated = .error fault)
      (errors : expansion.errors = [SiteFault.diagnostic fault source "lower"])
      (declaration : expansion.declaration = none) (invocations : expansion.invocations = [])
      (fragments : expansion.fragments = [])
  | used {annotated : AnnotatedDeclaration}
      {contributions : List (List Fragment × List Diagnostic)}
      (accepted : site.annotated = .ok annotated)
      (declaration : expansion.declaration = some annotated.declaration)
      (invocations : expansion.invocations = annotated.invocations)
      (denotes : List.Forall₂ (fun used invocation => Attribute.Denotes used.1 used.2 invocation)
        site.macros expansion.invocations)
      (each : List.Forall₂ (Contributes annotated.declaration settings source)
        expansion.invocations contributions)
      (fragments : expansion.fragments = contributions.flatMap Prod.fst)
      (errors : expansion.errors = contributions.flatMap Prod.snd)

theorem Site.expand_expandsTo (site : Site) (settings : ExpansionSettings) (source : SourceText) :
    site.ExpandsTo settings source (site.expand settings source) := by
  unfold Site.expand
  cases annotated : site.annotated with
  | error fault => exact .fails annotated rfl rfl rfl rfl
  | ok found =>
      obtain ⟨declaration, invocations⟩ := found
      obtain ⟨contributions, each, exact⟩ :=
        SiteExpansion.exists_contributions invocations declaration settings source
      simp only [exact]
      exact .used annotated rfl rfl (Site.denotes_of_annotated annotated) each rfl rfl

/-! ## A source text -/

/-- The expansion of a source text has one entry for each of its sites, in their order. An
invocation or a site that fails adds its diagnostic and changes nothing else. -/
theorem FileExpansion.sites_expand_apart (source : SourceText) (settings : ExpansionSettings) :
    List.Forall₂
      (fun site expansion => expansion.span = site.span ∧
        expansion.macroSpans = site.macros.map (fun used => used.2.span) ∧
        site.ExpandsTo settings source expansion)
      (readSites source.content) (FileExpansion.ofSource source settings).sites := by
  refine List.forall₂_map_right_iff.mpr (List.forall₂_same.mpr fun site _ => ?_)
  exact ⟨site.expand_span settings source, site.expand_macroSpans settings source,
    site.expand_expandsTo settings source⟩

end StyleMacros
