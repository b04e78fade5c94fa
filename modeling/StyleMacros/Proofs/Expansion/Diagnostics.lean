import StyleMacros.Proofs.Expansion.Outcomes
import StyleMacros.Proofs.Source.ArgumentSpans

/-!
# Where diagnostics point

Every diagnostic of an expansion points to text of the site that it is about: into the attribute
that it blames, to the first byte behind it, or to what the attributes stand in front of.
-/

set_option autoImplicit false

namespace StyleMacros

/-- The place of a diagnostic in its site, for each kind that an expansion reports. -/
inductive Diagnostic.PointsInto (diagnostic : Diagnostic) (site : Site) : Prop
  | validation {name : MacroName} {message : Text} {written : Attribute}
      (kind : diagnostic.kind = .validation name message)
      (blamed : (name, written) ∈ site.macros) (inside : diagnostic.span.Within written.span)
  | malformedArgument {name : MacroName} {reason : Text} {written : Attribute}
      (kind : diagnostic.kind = .malformedArgument name reason)
      (blamed : (name, written) ∈ site.macros) (inside : diagnostic.span.Within written.span)
  | malformedDeclaration {name : MacroName} {reason : Text} {written : Attribute}
      (kind : diagnostic.kind = .malformedDeclaration name reason)
      (first : site.macros.head? = some (name, written))
      (inside : diagnostic.span.Within site.span)
  | malformedArguments {name : MacroName} {written : Attribute}
      (kind : diagnostic.kind = .parse ("malformed argument list for @" ++ written.name))
      (blamed : (name, written) ∈ site.macros)
      (behind : diagnostic.span = ⟨written.span.stop, written.span.stop + 1⟩)
  | incompleteDeclaration {keyword : Keyword}
      (kind : diagnostic.kind = .parse ("incomplete `" ++ keyword.text ++ "` declaration"))
      (inside : diagnostic.span.Within site.span)

/-! ## Lists -/

/-- What a list denotes is denoted by one of its elements. -/
theorem exists_mem_of_forall₂ {First Second : Type} {relation : First → Second → Prop}
    {firsts : List First} {seconds : List Second}
    (each : List.Forall₂ relation firsts seconds) {second : Second} (inside : second ∈ seconds) :
    ∃ first ∈ firsts, relation first second := by
  induction each with
  | nil => cases inside
  | cons related later inductionHypothesis =>
      rcases List.mem_cons.mp inside with rfl | inside
      · exact ⟨_, List.mem_cons_self, related⟩
      · obtain ⟨first, firstMember, related⟩ := inductionHypothesis inside
        exact ⟨first, List.mem_cons_of_mem _ firstMember, related⟩

/-! ## Faults of a site -/

theorem SourceArgument.FlawAt.mem_partSpans {written : SourceArgument} {span : Span}
    (flaw : written.FlawAt span) : span ∈ written.partSpans := by
  unfold SourceArgument.FlawAt at flaw
  unfold SourceArgument.partSpans
  cases present : written.value with
  | none =>
      rw [present] at flaw
      exact flaw ▸ List.mem_cons_self
  | some expression =>
      rw [present] at flaw
      refine List.mem_cons_of_mem _ ?_
      cases expression with
      | string value interpolated place => exact flaw ▸ List.mem_cons_self
      | other text place => exact flaw ▸ List.mem_cons_self
      | array elements place =>
          obtain ⟨element, first, rfl⟩ := flaw
          exact List.mem_cons_of_mem _ (List.mem_map_of_mem first.mem)

section Site

variable {text : Text} {site : Site} (member : site ∈ readSites text)

include member

theorem Site.fault_pointsInto {fault : Located SiteFault} (refused : site.annotated = .error fault)
    (source : SourceText) :
    fault.span.Points text ∧ (SiteFault.diagnostic fault source "lower").PointsInto site := by
  have placed := (readSites_placed text).1 site member
  have parts := readSites_partsPlaced member
  obtain ⟨first, others, listed⟩ := List.exists_cons_of_ne_nil placed.hasMacro
  have head : site.macros.head? = some (first.1, first.2) := by rw [listed]; rfl
  by_cases readable : site.Readable
  · obtain ⟨incomplete, otherWord, nothing⟩ := Site.fails_of_target listed readable
    cases target : site.target with
    | nothing =>
        obtain ⟨reason, found, same, kind⟩ := nothing target
        cases same.symm.trans refused
        exact ⟨parts.whole, .malformedDeclaration kind head (.refl site.span)⟩
    | word word span =>
        obtain ⟨-, behind, stop⟩ := placed.target span (by rw [target]; rfl)
        have firstMember := Site.mem_macros (List.mem_of_mem_head? head)
        obtain ⟨firstPlaced, start, -⟩ := placed.attributes first.2 firstMember
        have inside : span.Within site.span :=
          ⟨(start.trans firstPlaced.fits.ordered).trans (behind first.2 firstMember), stop⟩
        by_cases known : ∃ keyword : Keyword, keyword.text = word
        · obtain ⟨keyword, rfl⟩ := known
          obtain ⟨found, same, kind⟩ := incomplete keyword span target
          cases same.symm.trans refused
          exact ⟨parts.word _ span target, .incompleteDeclaration kind inside⟩
        · obtain ⟨reason, found, same, kind⟩ := otherWord word span target known
          cases same.symm.trans refused
          exact ⟨parts.word word span target, .malformedDeclaration kind head inside⟩
    | declaration written =>
        have mixed : ¬ ∀ used ∈ site.macros, used.2.TakesLiterals := by
          intro literal
          obtain ⟨annotated, same, -⟩ := Site.annotated_of_literals listed readable target literal
          cases same.symm.trans refused
        obtain ⟨used, argument, span, reason, firstUsed, firstArgument, flaw, found, same, kind⟩ :=
          Site.fails_of_argument listed readable target mixed
        cases same.symm.trans refused
        have part : span ∈ used.2.partSpans :=
          List.mem_flatMap.mpr ⟨argument, firstArgument.mem, flaw.mem_partSpans⟩
        obtain ⟨points, inside⟩ :=
          (parts.attributes used.2 (Site.mem_macros firstUsed.mem)).parts span part
        exact ⟨points, .malformedArgument kind firstUsed.mem inside⟩
  · obtain ⟨used, malformed⟩ := exists_isFirstNot readable
    cases (Site.annotated_of_malformed malformed).symm.trans refused
    have behind := (parts.attributes used.2 (Site.mem_macros malformed.mem)).behind
    exact ⟨behind (by simpa using malformed.not_kind), .malformedArguments rfl malformed.mem rfl⟩

/-! ## Faults of an invocation -/

theorem Site.use_pointsInto {annotated : AnnotatedDeclaration}
    (accepted : site.annotated = .ok annotated) {invocation : Invocation}
    (listed : invocation ∈ annotated.invocations) {targets : Targets} {fault : Located UseFault}
    (refused : invocation.use annotated.declaration targets = .error fault) (source : SourceText) :
    fault.span.Points text ∧
      (UseFault.diagnostic fault invocation.name source "validate").PointsInto site := by
  obtain ⟨used, usedMember, denotes⟩ :=
    exists_mem_of_forall₂ (Site.denotes_of_annotated accepted) listed
  have parts := (readSites_partsPlaced member).attributes used.2 (Site.mem_macros usedMember)
  have blamed : (invocation.name, used.2) ∈ site.macros := by
    rw [denotes.name]
    exact usedMember
  rcases (Invocation.use_error refused).1 with whole | ⟨argument, argumentMember, -, place⟩
  · rw [denotes.span] at whole
    refine ⟨whole ▸ parts.whole, .validation rfl blamed ?_⟩
    exact whole ▸ .refl used.2.span
  · obtain ⟨written, writtenMember, argumentDenotes⟩ :=
      exists_mem_of_forall₂ denotes.arguments argumentMember
    rw [argumentDenotes.span] at place
    have part : fault.span ∈ used.2.partSpans :=
      List.mem_flatMap.mpr ⟨written, writtenMember, place ▸ List.mem_cons_self⟩
    obtain ⟨points, inside⟩ := parts.parts fault.span part
    exact ⟨points, .validation rfl blamed inside⟩

theorem Site.errors_pointInto (settings : ExpansionSettings) (source : SourceText) :
    ∀ diagnostic ∈ (site.expand settings source).errors,
      diagnostic.source = source ∧ diagnostic.span.Points text ∧ diagnostic.PointsInto site := by
  intro diagnostic reported
  cases site.expand_expandsTo settings source with
  | fails refused errors =>
      rw [errors] at reported
      cases List.mem_singleton.mp reported
      exact ⟨rfl, Site.fault_pointsInto member refused source⟩
  | used accepted declaration invocations denotes each fragments errors =>
      rw [errors] at reported
      obtain ⟨contribution, contributed, inside⟩ := List.mem_flatMap.mp reported
      obtain ⟨invocation, listed, contributes⟩ := exists_mem_of_forall₂ each contributed
      cases contributes with
      | adds fits expanded roles => cases inside
      | fails unfit expanded kind =>
          cases List.mem_singleton.mp inside
          obtain ⟨fault, refused, rfl⟩ := Invocation.exists_fault_of_expand expanded
          rw [invocations] at listed
          exact ⟨rfl, Site.use_pointsInto member accepted listed refused source⟩

end Site

/-! ## A source text -/

/-- Every diagnostic of a source text points to text that is not empty, between boundaries of
characters, and into the site whose expansion reports it. -/
theorem FileExpansion.diagnostics_point_into_sites (source : SourceText)
    (settings : ExpansionSettings) :
    List.Forall₂
      (fun site expansion => expansion.span = site.span ∧
        ∀ diagnostic ∈ expansion.errors, diagnostic.source = source ∧
          diagnostic.span.Points source.content ∧ diagnostic.PointsInto site)
      (readSites source.content) (FileExpansion.ofSource source settings).sites := by
  refine List.forall₂_map_right_iff.mpr (List.forall₂_same.mpr fun site member => ?_)
  exact ⟨site.expand_span settings source, site.errors_pointInto member settings source⟩

end StyleMacros
