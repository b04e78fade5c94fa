import StyleMacros.Proofs.Rendering.Alignment
import StyleMacros.Proofs.Rendering.Losses
import StyleMacros.Settings

/-!
# What rendering leaves to expand

What is rendered from a legible source has no site, unless a site of the source hides an attribute
that names a macro. A text without sites is rendered to itself.
-/

set_option autoImplicit false

namespace StyleMacros

/-- A site in which an attribute names a macro and belongs to no site. It stands in the body of the
site, in a clause of its declaration, or among the arguments of another attribute. -/
def Site.Hides (site : Site) (source : Text) : Prop :=
  ∃ text written behind, source.Reached text ∧ ¬ source.Marked text ∧
    readAttribute source.size text = some (written, behind) ∧ written.macroName? ≠ none ∧
      site.Covers written

theorem FileExpansion.render_of_readSites_eq_nil {source : SourceText}
    (none : readSites source.content = []) (settings : ExpansionSettings) (unit : Text) :
    (FileExpansion.ofSource source settings).render source.content ⟨unit, Option.none⟩ =
      some source.content := by
  have noSites : FileExpansion.ofSource source settings = ⟨[]⟩ := by
    rw [FileExpansion.ofSource, none]
    rfl
  rw [noSites]
  show some (Text.dropBytes 0 source.content) = some source.content
  cases source.content <;> rfl

theorem forall_macroName?_eq_none_iff_no_site_hides {source : Text} (legible : source.Legible)
    (declared : ∀ site ∈ readSites source, ∃ written, site.target = .declaration written) :
    (∀ text used behind, source.Reached text → ¬ source.Marked text →
        readAttribute source.size text = some (used, behind) → used.macroName? = none) ↔
      ∀ site ∈ readSites source, ¬ site.Hides source := by
  constructor
  · rintro foreign site - ⟨text, used, behind, reached, unmarked, read, named, -⟩
    exact named (foreign text used behind reached unmarked read)
  · intro shown text used behind reached unmarked read
    by_contra named
    obtain ⟨site, member, covers⟩ :=
      (legible.sitesFrom_reached declared (.start source) fun _ member => member).2 text used behind
        reached reached.suffix read named
    exact shown site member ⟨text, used, behind, reached, unmarked, read, named, covers⟩

theorem FileExpansion.readSites_declared {source : SourceText} {settings : ExpansionSettings}
    (sound : (FileExpansion.ofSource source settings).hasErrors = false) :
    ∀ site ∈ readSites source.content, ∃ written, site.target = .declaration written := by
  intro site member
  obtain ⟨declaration, declared⟩ := FileExpansion.exists_declaration_of_hasErrors_eq_false sound
    (List.mem_map_of_mem member)
  obtain ⟨written, target, -⟩ := Site.expand_declaration declared
  exact ⟨written, target⟩

/-- What is rendered from a legible source without errors has no site exactly if no site of the
source hides an attribute that names a macro. Rendered again it stays the same. -/
theorem readSites_rendered_eq_nil_iff_no_site_hides (source : SourceText) (settings : Settings)
    (width : Nat) (sound : (FileExpansion.ofSource source settings.expansion).hasErrors = false)
    (legible : source.content.Legible) :
    ∃ output, (FileExpansion.ofSource source settings.expansion).render source.content
        ⟨indentUnit width, none⟩ = some output ∧
      (readSites output = [] ↔ ∀ site ∈ readSites source.content, ¬ site.Hides source.content) ∧
      (readSites output = [] → ∀ name again unit,
        (FileExpansion.ofSource ⟨name, output⟩ again).render output ⟨unit, none⟩ = some output) := by
  have declared := FileExpansion.readSites_declared sound
  have generatedBlank : settings.expansion.unit.Calm := indentUnit_calm settings.indentWidth
  have respects := FileExpansion.edits_respect source generatedBlank (indentUnit_calm width) legible
    declared
  have whole : (FileExpansion.ofSource source settings.expansion).render source.content
      ⟨indentUnit width, none⟩ = some (Edit.resultFrom source.content source.content
        (Edit.sort ((FileExpansion.ofSource source settings.expansion).edits source.content
          (indentUnit width)))) := by
    rw [FileExpansion.render, sound, Edit.resultFrom, Nat.sub_self]
    rfl
  refine ⟨_, whole, ?_, fun none name again unit =>
    FileExpansion.render_of_readSites_eq_nil none again unit⟩
  rw [readSites_eq_sitesFrom, Edit.sitesFrom_result_eq_nil_iff respects legible (Nat.le_refl _)]
  exact forall_macroName?_eq_none_iff_no_site_hides legible declared

/-- Attributes in comments and strings, one of them in front of a site and one in a body that stay,
and a quote that opens nothing. -/
def mentionedAttributes : SourceText :=
  ⟨"Card.swift",
    "// @Style\n@available(*) @UIComponent\nstruct Card \x7b\n    let mark = /\"/\n" ++
    "    let text = \"\"\"\n    an \"@Style\"\n    \"\"\"\n" ++
    "    @Tagged(/* id */ \"\\(1)\") var size = 1\n\x7d\n"⟩

section Mentioned

open Text

theorem afterArguments?_star (other : Text) :
    afterArguments? ('(' :: (['*', ')'] ++ other)) = some other := by
  have markless : Markless ['*'] := by decide
  exact afterArguments?_value (by decide) (by decide +kernel) markless (by decide) other

theorem afterArguments?_tag (other : Text) :
    afterArguments? ('(' :: ("/* id */ \"\\(1)\")" ++ other)) = some other := by
  have start : skipTrivia ("/* id */ \"\\(1)\")" ++ other) = "\"\\(1)\")" ++ other := rfl
  simp only [afterArguments?, readArguments, readClosedList, start]
  rfl

theorem mentionedAttributes_marks :
    behindMark mentionedAttributes.content "/*" =
        [" id */" ++ mentionedAttributes.content.dropBytes 133] ∧
      behindMark mentionedAttributes.content "\"" =
        ["/" ++ mentionedAttributes.content.dropBytes 69,
          "\"\"\n    an \"@Style\"\n    \"\"\"" ++ mentionedAttributes.content.dropBytes 112,
          "\\(1)\"" ++ mentionedAttributes.content.dropBytes 140] ∧
      (behindMark mentionedAttributes.content "@").map identifier? =
        [some (("available" : Text), '(' :: (['*', ')'] ++ mentionedAttributes.content.dropBytes 23)),
          some (("UIComponent" : Text), mentionedAttributes.content.dropBytes 36),
          some (("Tagged" : Text),
            '(' :: ("/* id */ \"\\(1)\")" ++ mentionedAttributes.content.dropBytes 141))] ∧
      mentionedAttributes.content.Reached (mentionedAttributes.content.dropBytes 23) ∧
      mentionedAttributes.content.Reached (mentionedAttributes.content.dropBytes 141) := by
  decide +kernel

theorem mentionedAttributes_cuts :
    macroSpans mentionedAttributes.content = [⟨24, 36⟩] ∧
      mentionedAttributes.content = mentionedAttributes.content.takeBytes 23 ++
        ' ' :: mentionedAttributes.content.dropBytes 24 ∧
      (mentionedAttributes.content.dropBytes 69).head? = some '\n' ∧
      Uncut mentionedAttributes.content "/" (mentionedAttributes.content.dropBytes 69) ∧
      Uncut mentionedAttributes.content "(*)" (mentionedAttributes.content.dropBytes 23) ∧
      Uncut mentionedAttributes.content "(/* id */ \"\\(1)\")"
        (mentionedAttributes.content.dropBytes 141) ∧
      ∀ written ∈ mentionedAttributes.content.declarations,
        mentionedAttributes.content.Reached
          (mentionedAttributes.content.dropBytes written.body.start) ∧
        mentionedAttributes.content.Reached (mentionedAttributes.content.dropBytes
          (peerAnchor mentionedAttributes.content written.span.stop)) := by
  decide +kernel

theorem mentionedAttributes_legible : mentionedAttributes.content.Legible := by
  obtain ⟨comments, quotes, names, firstEnd, secondEnd⟩ := mentionedAttributes_marks
  obtain ⟨spans, split, feed, line, star, tag, declared⟩ := mentionedAttributes_cuts
  constructor
  case comments =>
    intro content reached
    have member := reached.mem_behindMark "/*"
    rw [comments] at member
    cases List.mem_singleton.mp member
    exact ⟨_, _, rfl, fun other => rfl⟩
  case literals =>
    intro content reached
    have member := reached.mem_behindMark "\""
    rw [quotes] at member
    simp only [List.mem_cons, List.not_mem_nil, or_false] at member
    rcases member with rfl | rfl | rfl
    · have ends : LineEnds (mentionedAttributes.content.dropBytes 69) := by
        refine .of_head? fun char first => ?_
        rw [feed] at first
        cases first
        rfl
      exact .lone (by decide) ends line fun other ends => afterQuoted?_eq_none (by decide) ends
    · exact .closed fun other _ => rfl
    · exact .closed fun other _ => rfl
  case arguments =>
    intro name content reached word foreign
    have member : identifier? (name ++ '(' :: content) ∈
        (behindMark mentionedAttributes.content "@").map identifier? :=
      List.mem_map_of_mem (reached.mem_behindMark "@")
    rw [names, identifier?_append word (endsWord_of_punctuation (by decide) content)] at member
    simp only [List.mem_cons, List.not_mem_nil, or_false, Option.some.injEq, Prod.mk.injEq] at member
    rcases member with ⟨rfl, same⟩ | ⟨rfl, -⟩ | ⟨rfl, same⟩
    · cases (List.cons.inj same).2
      exact ⟨_, _, rfl, firstEnd, star, afterArguments?_star⟩
    · exact absurd foreign (by decide)
    · cases (List.cons.inj same).2
      exact ⟨_, _, rfl, secondEnd, tag, afterArguments?_tag⟩
  case bodies => exact fun written member => (declared written member).1
  case anchors => exact fun written member => (declared written member).2
  case apart =>
    rintro lead text reached ⟨span, marks, rfl⟩
    rw [spans] at marks
    cases List.mem_singleton.mp marks
    exact apart_of_last split (by decide) (by decide) (by decide +kernel) reached.suffix

theorem readSites_rendered_eq_nil_of_mentioned_attributes :
    (FileExpansion.ofSource mentionedAttributes (Settings.expansion {})).hasErrors = false ∧
      mentionedAttributes.content.Legible ∧
      (∀ site ∈ readSites mentionedAttributes.content, ¬ site.Hides mentionedAttributes.content) ∧
      ∃ output, (FileExpansion.ofSource mentionedAttributes (Settings.expansion {})).render
        mentionedAttributes.content ⟨indentUnit 4, none⟩ = some output ∧ readSites output = [] := by
  have sound : (FileExpansion.ofSource mentionedAttributes (Settings.expansion {})).hasErrors =
      false := by
    decide +kernel
  have legible := mentionedAttributes_legible
  obtain ⟨output, success, exact, -⟩ :=
    readSites_rendered_eq_nil_iff_no_site_hides mentionedAttributes {} 4 sound legible
  have shown : ∀ site ∈ readSites mentionedAttributes.content,
      ¬ site.Hides mentionedAttributes.content := by
    have marks : ∀ text ∈ places mentionedAttributes.content,
        ∀ found ∈ readAttribute mentionedAttributes.content.size text,
          found.1.macroName? ≠ none → found.1.span ∈ macroSpans mentionedAttributes.content := by
      decide +kernel
    rintro site - ⟨text, written, behind, reached, unmarked, read, named, -⟩
    exact unmarked (marked_of_readAttribute reached.suffix read
      (marks text (reached_iff_mem_places.mp reached) _ read named))
  exact ⟨sound, legible, shown, output, success, exact.mpr shown⟩

end Mentioned

/-- A component in the body of another one. -/
def nestedComponents : SourceText :=
  ⟨"Card.swift", "@UIComponent\nstruct Card \x7b\n    @UIComponent\n    struct Row \x7b\x7d\n\x7d\n"⟩

theorem rendered_has_site_of_nested_components :
    (FileExpansion.ofSource nestedComponents (Settings.expansion {})).hasErrors = false ∧
      ∃ output, (FileExpansion.ofSource nestedComponents (Settings.expansion {})).render
        nestedComponents.content ⟨indentUnit 4, none⟩ = some output ∧ readSites output ≠ [] := by
  have sound : (FileExpansion.ofSource nestedComponents (Settings.expansion {})).hasErrors =
      false := by
    decide +kernel
  refine ⟨sound, _, by rw [FileExpansion.render, sound]; rfl, ?_⟩
  apply List.ne_nil_of_length_pos
  decide +kernel

end StyleMacros
