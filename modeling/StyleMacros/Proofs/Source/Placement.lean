import Mathlib.Data.List.Pairwise
import StyleMacros.Proofs.Source.Progress
import StyleMacros.Proofs.Text.Blanks
import StyleMacros.Proofs.Text.Offsets

/-!
# Where the parts of a site lie

Every span that reading a text answers with lies between two boundaries of the text, and the
spans of a site, of its attributes and of its target lie to each other as the parts of the site
are written. `readSites_placed` says this for every site of every text.
-/

set_option autoImplicit false

namespace StyleMacros

/-! ## Placed spans -/

/-- The span runs forward between two boundaries of the text. -/
structure Span.Fits (span : Span) (source : Text) : Prop where
  ordered : span.start ≤ span.stop
  start : source.IsBoundary span.start
  stop : source.IsBoundary span.stop

/-- The attribute covers what is written for it: an at sign, its name, and at the end a
character that is no blank. -/
structure Attribute.Placed (written : Attribute) (source : Text) : Prop where
  fits : written.span.Fits source
  opens : source.CharAt written.span.start '@'
  named : '@' :: written.name <+: written.span.text source
  solid : ∃ offset last, source.CharAt offset last ∧
    offset + last.utf8Size = written.span.stop ∧ isWhitespace last = false

/-- The body lies between the two braces with which the declaration ends. -/
structure SourceDeclaration.Placed (written : SourceDeclaration) (source : Text) : Prop where
  fits : written.span.Fits source
  body : written.body.Fits source
  opens : ∃ opening, written.span.start ≤ opening ∧ source.CharAt opening '\x7b' ∧
    opening + 1 = written.body.start
  closes : source.CharAt written.body.stop '\x7d'
  ends : written.body.stop + 1 = written.span.stop

def Target.span? : Target → Option Span
  | .declaration written => some written.span
  | .word _ span => some span
  | .nothing => none

structure Site.Placed (site : Site) (source : Text) : Prop where
  fits : site.span.Fits source
  hasMacro : site.macros ≠ []
  starts : ∃ first others, site.attributes = first :: others ∧
    first.span.start = site.span.start
  attributes : ∀ written ∈ site.attributes, written.Placed source ∧
    site.span.start ≤ written.span.start ∧ written.span.stop ≤ site.span.stop
  ordered : site.attributes.Pairwise fun earlier later => earlier.span.stop ≤ later.span.start
  target : ∀ span, site.target.span? = some span → span.Fits source ∧
    (∀ written ∈ site.attributes, written.span.stop ≤ span.start) ∧ span.stop ≤ site.span.stop
  declaration : ∀ written, site.target = .declaration written → written.Placed source

/-- Of items that lie one behind the other, any two are the same or lie so. -/
theorem eq_or_apart_of_pairwise {Item : Type} {span : Item → Span} {items : List Item}
    (ordered : items.Pairwise fun earlier later => (span earlier).stop ≤ (span later).start)
    {first second : Item} (member : first ∈ items) (otherMember : second ∈ items) :
    first = second ∨ (span first).stop ≤ (span second).start ∨
      (span second).stop ≤ (span first).start := by
  have symmetric : Std.Symm fun left right : Item =>
      (span left).stop ≤ (span right).start ∨ (span right).stop ≤ (span left).start :=
    ⟨fun _ _ => Or.symm⟩
  by_cases same : first = second
  · exact .inl same
  · have apart : items.Pairwise fun left right =>
        (span left).stop ≤ (span right).start ∨ (span right).stop ≤ (span left).start :=
      ordered.imp Or.inl
    exact .inr (apart.forall member otherMember same)

namespace Span

theorem between_fits {source text rest : Text} (inside : text <:+ source)
    (suffix : rest <:+ text) : (between source.size text rest).Fits source := by
  have sizes := Text.size_le_of_suffix suffix
  refine ⟨?_, .of_suffix inside, .of_suffix (suffix.trans inside)⟩
  simp only [between]
  omega

theorem text_between {source front rest : Text} (inside : front ++ rest <:+ source) :
    (between source.size (front ++ rest) rest).text source = front := by
  obtain ⟨lead, rfl⟩ := inside
  apply Text.slice_append lead front rest
  · simp only [between, Text.size_append]
    omega
  · simp only [between, Text.size_append]
    omega

end Span

theorem start_le_start_of_suffix {source text rest : Text} (suffix : rest <:+ text) :
    source.size - text.size ≤ source.size - rest.size := by
  have sizes := Text.size_le_of_suffix suffix
  omega

theorem charAt_of_suffix {source : Text} {char : Char} {rest : Text}
    (inside : char :: rest <:+ source) :
    source.CharAt (source.size - Text.size (char :: rest)) char := by
  obtain ⟨front, rfl⟩ := inside
  exact ⟨front, rest, rfl, by simp⟩

theorem exists_solid_before {source front rest : Text} {last : Char}
    (inside : front ++ last :: rest <:+ source) (solid : isWhitespace last = false) :
    ∃ offset last, source.CharAt offset last ∧
      offset + last.utf8Size = source.size - rest.size ∧ isWhitespace last = false := by
  obtain ⟨lead, rfl⟩ := inside
  refine ⟨Text.size (lead ++ front), last, ⟨lead ++ front, rest, by simp, rfl⟩, ?_, solid⟩
  simp only [Text.size_append, Text.size_cons]
  omega

/-! ## Attributes -/

theorem readAttribute_placed {source text rest : Text} {written : Attribute}
    (inside : text <:+ source) (success : readAttribute source.size text = some (written, rest)) :
    written.Placed source ∧ written.span = .between source.size text rest := by
  have suffix := readAttribute_leavesSuffix source.size _ _ _ success
  obtain ⟨behind, exact, named, ends, spanExact⟩ := readAttribute_exposes_parts success
  have bounds := Span.between_fits inside suffix
  rw [← spanExact] at bounds
  refine ⟨⟨bounds, ?_, ?_, ?_⟩, spanExact⟩
  · rw [spanExact]
    subst exact
    exact charAt_of_suffix inside
  · have behindSuffix : rest <:+ behind := by
      rcases ends with rfl | closes
      · exact List.suffix_refl _
      · exact (List.suffix_cons ')' rest).trans closes
    obtain ⟨arguments, rfl⟩ := behindSuffix
    subst exact
    rw [spanExact]
    rw [← List.append_assoc] at inside ⊢
    rw [Span.text_between inside]
    exact List.prefix_append _ _
  · rw [spanExact]
    rcases ends with rfl | closes
    · obtain ⟨front, last, nameExact, solid⟩ := Text.exists_solid_end_of_identifier? named
      rw [exact, nameExact] at inside
      have whole : ('@' :: front) ++ last :: rest <:+ source := by simpa using inside
      exact exists_solid_before whole solid
    · obtain ⟨arguments, rfl⟩ := closes
      subst exact
      rw [← List.append_assoc] at inside
      exact exists_solid_before inside (by decide)

theorem ReadsInTurn.attributes_placed {source text last : Text} {attributes : List Attribute}
    (inside : text <:+ source)
    (run : ReadsInTurn (readAttribute source.size) text attributes last) :
    (∀ written ∈ attributes, written.Placed source ∧
      source.size - text.size ≤ written.span.start ∧
      written.span.stop ≤ source.size - last.size) ∧
    attributes.Pairwise fun earlier later => earlier.span.stop ≤ later.span.start := by
  induction run with
  | done text => simp
  | @next text rest last first others success later inductionHypothesis =>
      have skipped := skipTrivia_suffix text
      have left := readAttribute_leavesSuffix source.size _ _ _ success
      obtain ⟨firstPlaced, firstSpan⟩ := readAttribute_placed (skipped.trans inside) success
      obtain ⟨placed, ordered⟩ := inductionHypothesis ((left.trans skipped).trans inside)
      have lastSuffix := later.suffix (readAttribute_leavesSuffix source.size)
      refine ⟨?_, List.pairwise_cons.mpr ⟨?_, ordered⟩⟩
      · intro written member
        rcases List.mem_cons.mp member with rfl | member
        · refine ⟨firstPlaced, ?_, ?_⟩
          · rw [firstSpan]
            exact start_le_start_of_suffix skipped
          · rw [firstSpan]
            exact start_le_start_of_suffix lastSuffix
        · obtain ⟨writtenPlaced, low, high⟩ := placed written member
          exact ⟨writtenPlaced,
            (start_le_start_of_suffix (left.trans skipped)).trans low, high⟩
      · intro written member
        rw [firstSpan]
        exact (placed written member).2.1

/-! ## Targets -/

theorem readDeclaration_placed {source text rest : Text} {written : SourceDeclaration}
    (inside : text <:+ source)
    (success : readDeclaration source.size text = some (written, rest)) :
    written.Placed source ∧ written.span = .between source.size text rest := by
  have suffix := readDeclaration_leavesSuffix source.size _ _ _ success
  obtain ⟨spanExact, behind, behindSuffix, bodied⟩ := readDeclaration_exposes_body success
  obtain ⟨content, exact, bodyExact⟩ := readBody_exposes_braces bodied
  subst exact
  have behindInside := behindSuffix.trans inside
  have contentInside : content ++ '\x7d' :: rest <:+ source :=
    (List.suffix_cons _ _).trans behindInside
  have closingInside : '\x7d' :: rest <:+ source :=
    (List.suffix_append content _).trans contentInside
  have opened := charAt_of_suffix behindInside
  have closed := charAt_of_suffix closingInside
  refine ⟨⟨?_, ?_, ?_, ?_, ?_⟩, spanExact⟩
  · rw [spanExact]
    exact Span.between_fits inside suffix
  · rw [bodyExact]
    exact Span.between_fits contentInside (List.suffix_append content _)
  · refine ⟨_, ?_, opened, ?_⟩
    · rw [spanExact]
      exact start_le_start_of_suffix behindSuffix
    · have sizes := Text.size_le_of_suffix behindInside
      rw [bodyExact]
      simp only [Text.size_cons, Span.between] at sizes ⊢
      rw [show Char.utf8Size '\x7b' = 1 from rfl] at sizes ⊢
      omega
  · rw [bodyExact]
    exact closed
  · have sizes := Text.size_le_of_suffix closingInside
    rw [bodyExact, spanExact]
    simp only [Text.size_cons, Span.between] at sizes ⊢
    rw [show Char.utf8Size '\x7d' = 1 from rfl] at sizes ⊢
    omega

theorem readTarget_placed {source text : Text} (inside : text <:+ source) :
    (readTarget source.size text).2 <:+ text ∧
    (∀ span, (readTarget source.size text).1.span? = some span →
      span = .between source.size text (readTarget source.size text).2) ∧
    ∀ written, (readTarget source.size text).1 = .declaration written →
      written.Placed source := by
  unfold readTarget
  split
  · rename_i written rest success
    obtain ⟨placed, spanExact⟩ := readDeclaration_placed inside success
    refine ⟨readDeclaration_leavesSuffix source.size _ _ _ success, ?_, ?_⟩
    · intro span found
      exact (Option.some.inj found).symm.trans spanExact
    · intro other same
      cases same
      exact placed
  · split
    · rename_i word span rest success
      obtain ⟨suffix, spanExact⟩ := readUnsupported_exposes_span success
      refine ⟨suffix, ?_, ?_⟩
      · intro found same
        exact (Option.some.inj same).symm.trans spanExact
      · intro other same
        cases same
    · refine ⟨List.suffix_refl text, ?_, ?_⟩
      · intro span found
        cases found
      · intro other same
        cases same

/-! ## Sites -/

theorem Site.macros_ne_nil_of_any {site : Site}
    (some : site.attributes.any (fun written => written.macroName?.isSome) = true) :
    site.macros ≠ [] := by
  obtain ⟨written, member, named⟩ := List.any_eq_true.mp some
  obtain ⟨name, found⟩ := Option.isSome_iff_exists.mp named
  apply List.ne_nil_of_mem (a := (name, written))
  exact List.mem_filterMap.mpr ⟨written, member, by simp [found]⟩

theorem readSite_placed {source text rest : Text} {site : Site} (inside : text <:+ source)
    (success : readSite source.size text = some (site, rest)) :
    site.Placed source ∧ rest <:+ text ∧ site.span = .between source.size text rest := by
  obtain ⟨first, others, behind, last, listed, firstRead, later, named, targetRead, spanExact⟩ :=
    readSite_exposes_parts success
  have run : ReadsInTurn (readAttribute source.size) text site.attributes last :=
    listed ▸ .of_readAttribute firstRead later
  obtain ⟨-, firstSpan⟩ := readAttribute_placed inside firstRead
  obtain ⟨placed, ordered⟩ := run.attributes_placed inside
  have targetStart := skipTrivia_suffix last
  have targetInside : skipTrivia last <:+ source :=
    (targetStart.trans (run.suffix (readAttribute_leavesSuffix source.size))).trans inside
  obtain ⟨restSuffix, targetSpan, declared⟩ := readTarget_placed targetInside
  rw [targetRead] at restSuffix targetSpan declared
  have suffix : rest <:+ text := readSite_leavesSuffix source.size _ _ _ success
  have sitePlaced : site.Placed source := {
    fits := spanExact ▸ Span.between_fits inside suffix
    hasMacro := Site.macros_ne_nil_of_any named
    starts := ⟨first, others, listed, by rw [firstSpan, spanExact]; rfl⟩
    attributes := by
      intro written member
      obtain ⟨writtenPlaced, low, high⟩ := placed written member
      rw [spanExact]
      exact ⟨writtenPlaced, low,
        high.trans (start_le_start_of_suffix (restSuffix.trans targetStart))⟩
    ordered := ordered
    target := by
      intro span found
      rw [targetSpan span found, spanExact]
      refine ⟨Span.between_fits targetInside restSuffix, ?_, Nat.le_refl _⟩
      intro written member
      exact (placed written member).2.2.trans (start_le_start_of_suffix targetStart)
    declaration := declared }
  exact ⟨sitePlaced, suffix, spanExact⟩

theorem afterSkipped_suffix (text : Text) : afterSkipped text <:+ text := by
  unfold afterSkipped
  cases quoted : Region.afterQuoted? text with
  | none => exact List.drop_suffix 1 text
  | some rest => exact Region.findSome?_finish?_suffix Region.quoteOpenings_opensAtHead quoted

theorem readSitesWithin_placed {source : Text} (fuel : Nat) {text : Text}
    (inside : text <:+ source) :
    (∀ site ∈ readSitesWithin source.size fuel text,
      site.Placed source ∧ source.size - text.size ≤ site.span.start) ∧
    (readSitesWithin source.size fuel text).Pairwise
      fun earlier later => earlier.span.stop ≤ later.span.start := by
  -- that no site starts in front of the text read from keeps the later ones behind the first
  induction fuel generalizing text with
  | zero => simp [readSitesWithin]
  | succ fuel inductionHypothesis =>
      have skipped := skipTrivia_suffix text
      rw [readSitesWithin]
      split
      · simp
      · rename_i head tail remaining
        rw [remaining] at skipped
        split
        · rename_i site behind success
          obtain ⟨sitePlaced, suffix, spanExact⟩ :=
            readSite_placed (skipped.trans inside) success
          obtain ⟨placed, ordered⟩ :=
            inductionHypothesis ((suffix.trans skipped).trans inside)
          refine ⟨?_, List.pairwise_cons.mpr ⟨?_, ordered⟩⟩
          · intro other member
            rcases List.mem_cons.mp member with rfl | member
            · rw [spanExact]
              exact ⟨sitePlaced, start_le_start_of_suffix skipped⟩
            · obtain ⟨otherPlaced, low⟩ := placed other member
              exact ⟨otherPlaced, (start_le_start_of_suffix (suffix.trans skipped)).trans low⟩
          · intro other member
            rw [spanExact]
            exact (placed other member).2
        · have suffix := (afterSkipped_suffix (head :: tail)).trans skipped
          obtain ⟨placed, ordered⟩ := inductionHypothesis (suffix.trans inside)
          refine ⟨?_, ordered⟩
          intro site member
          obtain ⟨sitePlaced, low⟩ := placed site member
          exact ⟨sitePlaced, (start_le_start_of_suffix suffix).trans low⟩

/-- The sites of a text stand one behind the other, each of them well placed. -/
theorem readSites_placed (source : Text) :
    (∀ site ∈ readSites source, site.Placed source) ∧
    (readSites source).Pairwise fun earlier later => earlier.span.stop ≤ later.span.start := by
  obtain ⟨placed, ordered⟩ := readSitesWithin_placed (source.length + 1) (List.suffix_refl source)
  exact ⟨fun site member => (placed site member).1, ordered⟩

end StyleMacros
