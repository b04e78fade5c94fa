import StyleMacros.Proofs.Expansion.Nesting
import StyleMacros.Proofs.Rendering.Deletion
import StyleMacros.Proofs.Rendering.Losses
import StyleMacros.Proofs.Rendering.Pass

/-!
# Rendering in a single pass

If every attribute stands alone on its lines and no code follows a declaration with peers on its
last line, rendering is one pass over the source.
-/

set_option autoImplicit false

namespace StyleMacros

/-! ## Where an edit puts in its text -/

theorem Text.trimEnd_eq_nil_iff {text : Text} : text.trimEnd = [] ↔ text.isBlank = true := by
  rw [Text.trimEnd, List.reverse_eq_nil_iff, List.dropWhile_eq_nil_iff, Text.isBlank,
    List.all_eq_true]
  simp

theorem SiteExpansion.Placed.outerIndent_eq {site : SiteExpansion} {source : Text}
    (placed : site.Placed source) : site.outerIndent source = source.lineIndent site.span.start :=
  placed.fits.start.lineIndent_eq.symm

theorem membersEdit_text {site : SiteExpansion} {source : Text} (placed : site.Placed source)
    (laid : ∀ fragment ∈ site.members, fragment.Feedless) (nonempty : site.members ≠ [])
    (unit : Text) (body : Span) :
    (membersEdit source body (source.lineIndent site.span.start) unit site.members).text =
      site.memberText source unit body := by
  have stacked : Text.stackedBelow (source.lineIndent site.span.start ++ unit) (site.added .member) =
      '\n' :: '\n' :: stackedFragments (source.lineIndent site.span.start ++ unit) site.members :=
    Text.stackedBelow_eq_stackedFragments _ nonempty laid
  simp only [membersEdit, SiteExpansion.memberText, placed.outerIndent_eq, stacked]
  by_cases blank : (body.text source).isBlank = true
  · rw [if_pos (Text.trimEnd_eq_nil_iff.mpr blank)]
    have all : (source.slice body.start body.stop).all isWhitespace = true := blank
    rw [if_pos all]
    simp
  · rw [if_neg (mt Text.trimEnd_eq_nil_iff.mp blank)]
    have some : ¬ (source.slice body.start body.stop).all isWhitespace = true := blank
    rw [if_neg some]

/-- A line tail that starts with a line comment still does so without its last blanks. -/
theorem isTrailingComment_of_lineComment {line : Text}
    (comment : "//".toList <+: line.trimStart) :
    isTrailingComment line.trimEnd.trimStart = true := by
  obtain ⟨words, exact⟩ := comment
  obtain ⟨blanks, split, blank⟩ := Text.exists_blanks_of_trimEnd line
  have whole : (line.takeWhile isWhitespace ++ "//".toList) ++ words = line.trimEnd ++ blanks := by
    rw [List.append_assoc, exact, ← split]
    exact List.takeWhile_append_dropWhile
  have lead : ∀ char ∈ line.takeWhile isWhitespace, isWhitespace char = true :=
    fun char member => List.mem_takeWhile_imp member
  have kept : ∃ more, line.trimEnd = line.takeWhile isWhitespace ++ ("//".toList ++ more) := by
    rcases List.append_eq_append_iff.mp whole with ⟨more, exact, _⟩ | ⟨more, exact, tail⟩
    · exact ⟨more, by rw [exact, List.append_assoc]⟩
    · rcases List.eq_nil_or_concat more with rfl | ⟨front, last, rfl⟩
      · exact ⟨[], by rw [List.append_nil] at exact; rw [← exact]; simp⟩
      · -- the second slash is no blank
        have ends : (line.takeWhile isWhitespace ++ ['/']) ++ ['/'] =
            (line.trimEnd ++ front) ++ [last] := by
          simpa using exact
        have slash : '/' = last := (List.cons.inj (List.append_inj' ends rfl).2).1
        have inside : '/' ∈ blanks := by
          rw [tail, slash]
          simp
        exact absurd (blank '/' inside) (by decide)
  obtain ⟨more, exact⟩ := kept
  have start : line.trimEnd.trimStart = '/' :: '/' :: more := by
    rw [exact, Text.trimStart, List.dropWhile_append_of_pos lead]
    rfl
  rw [start]
  rfl

/-! ## Ordinary layouts -/

/-- Peers go no further than the line on which the declaration ends. -/
theorem peerAnchor_le_lineEnd (source : Text) (stop : Nat) :
    peerAnchor source stop ≤ stop + Text.size (source.lineAfter stop) := by
  obtain ⟨blanks, split, _⟩ := Text.exists_blanks_of_trimEnd (source.lineAfter stop)
  have sizes := congrArg Text.size split
  rw [Text.size_append] at sizes
  simp only [peerAnchor]
  split <;> omega

/-- Peers of a declaration go in front of every later attribute that stands alone on its lines. -/
theorem SourceDeclaration.Placed.peerAnchor_lt {source : Text} {written : SourceDeclaration}
    (placed : written.Placed source) {span : Span} (fits : span.Fits source)
    (behind : written.span.stop ≤ span.start)
    (alone : (source.lineBefore span.start).isBlank = true) :
    peerAnchor source written.span.stop < span.start := by
  have ends := placed.ends
  have lineStart := fits.start.lineStart_le
  have before : written.body.stop < source.lineStart span.start := by
    rcases (fits.start.blank_before alone).outside placed.closes (by decide) with early | late
    · exact early
    · omega
  -- the brace stands on an earlier line, so a line feed stands between the two
  rcases fits.start.lineStart_cases with atStart | ⟨feed, found, next⟩
  · omega
  · have apart : feed ≠ written.body.stop := by
      rintro rfl
      exact absurd (found.char_eq placed.closes) (by decide)
    have line := placed.fits.stop.lineEnd_le_of_feed found (by omega)
    have anchor := peerAnchor_le_lineEnd source written.span.stop
    omega

namespace SiteExpansion

variable {site : SiteExpansion} {source unit : Text} {edit : Edit}

theorem InsertsFor.start_le_anchor {written : SourceDeclaration}
    (inserts : site.InsertsFor source written edit) (placed : written.Placed source) :
    edit.start ≤ peerAnchor source written.span.stop := by
  cases inserts with
  | members fills =>
      have ends := placed.ends
      have forward := fills.ordered
      have stops := fills.stop
      have behind := (peerAnchor_trails placed.fits.stop).behind
      omega
  | peers outer _ exact =>
      subst exact
      exact Nat.le_refl _

theorem Placed.insertion_start_lt {earlier later : SiteExpansion} (placed : earlier.Placed source)
    (placedLater : later.Placed source) (behind : earlier.span.stop ≤ later.span.start)
    (member : edit ∈ earlier.insertions source unit) {span : Span}
    (inside : span ∈ later.macroSpans) (alone : (source.lineBefore span.start).isBlank = true) :
    edit.start < span.start := by
  obtain ⟨_, written, _, _, encloses, inserts⟩ := placed.exists_insertsFor member
  obtain ⟨⟨used, usedPlaced, rfl⟩, starts, _⟩ := placedLater.macros span inside
  have stops := encloses.stops
  have anchor := encloses.placed.peerAnchor_lt usedPlaced.fits (by omega) alone
  exact Nat.lt_of_le_of_lt (inserts.start_le_anchor encloses.placed) anchor

theorem Placed.stop_le_insertion_start (placed : site.Placed source)
    (member : edit ∈ site.insertions source unit) {span : Span} (inside : span ∈ site.macroSpans) :
    span.stop ≤ edit.start := by
  obtain ⟨_, written, _, _, encloses, inserts⟩ := placed.exists_insertsFor member
  obtain ⟨opening, behind, _, next⟩ := encloses.placed.opens
  have starts := inserts.body_start_le encloses.placed
  have before := encloses.behindMacros span inside
  omega

end SiteExpansion

namespace FileExpansion

variable {expansion : FileExpansion} {source : Text}

theorem OrdinaryLayout.blank (ordinary : expansion.OrdinaryLayout source)
    (placed : expansion.Placed source) {site : SiteExpansion} (member : site ∈ expansion.sites)
    {span : Span} (inside : span ∈ site.macroSpans) :
    (source.lineBefore span.start).isBlank = true ∧ (source.lineAfter span.stop).isBlank = true := by
  obtain ⟨⟨written, writtenPlaced, rfl⟩, -⟩ := (placed.sites site member).macros span inside
  have alone := ordinary.alone site member _ inside
  rw [writtenPlaced.fits.start.lineUpTo_eq] at alone
  obtain ⟨before, after⟩ := List.forall_mem_append.mp alone
  exact ⟨List.all_eq_true.mpr before, List.all_eq_true.mpr after⟩

theorem Placed.peersClear_of_ordinary (placed : expansion.Placed source)
    (ordinary : expansion.OrdinaryLayout source) : expansion.PeersClear source := by
  intro site siteMember other otherMember span inside declaration declared peered
  obtain ⟨written, spanExact, encloses⟩ :=
    (placed.sites site siteMember).declaration declaration declared
  have otherPlaced := placed.sites other otherMember
  obtain ⟨⟨used, usedPlaced, rfl⟩, starts, stops⟩ := otherPlaced.macros span inside
  have siteStarts := encloses.starts
  have siteStops := encloses.stops
  rw [spanExact]
  have inFront (before : used.span.stop ≤ written.span.start) :
      used.span.ClearOf source (peerAnchor source written.span.stop) := by
    have removed := (otherPlaced.removes inside).stop_le_body encloses.placed before
    have body := encloses.placed.body.ordered
    have ends := encloses.placed.ends
    have behind := (peerAnchor_trails encloses.placed.fits.stop).behind
    exact .inr (by omega)
  rcases eq_or_apart_of_pairwise placed.ordered siteMember otherMember with rfl | before | behind
  · exact inFront (encloses.behindMacros _ inside)
  · have ahead := encloses.placed.peerAnchor_lt usedPlaced.fits (by omega)
      (ordinary.blank placed otherMember inside).1
    exact .inl (Nat.le_of_lt ahead)
  · exact inFront (by omega)

/-- No two edits put something in at one place. -/
theorem Placed.edits_single (placed : expansion.Placed source)
    (annotated : ∀ site ∈ expansion.sites, site.macroSpans ≠ [])
    (ordinary : expansion.OrdinaryLayout source) (unit : Text) :
    (expansion.edits source unit).Pairwise fun left right =>
      left.start = right.start → left.text = [] ∨ right.text = [] := by
  refine List.pairwise_flatMap.mpr ⟨?_, placed.ordered.imp_of_mem ?_⟩
  · intro site member
    rw [SiteExpansion.edits_eq]
    refine List.pairwise_append.mpr ⟨?_, ?_, ?_⟩
    · refine List.pairwise_map.mpr (List.pairwise_of_forall ?_)
      intro span _ _
      exact .inl (removalEdit_text source span)
    · refine ((placed.sites site member).insertions_ordered unit).imp_of_mem ?_
      intro left right leftMember _ before same
      have forward := ((placed.sites site member).edit_fits (List.mem_append_right _ leftMember)).2.2
      omega
    · intro removal inside _ _ _
      obtain ⟨span, _, rfl⟩ := List.mem_map.mp inside
      exact .inl (removalEdit_text source span)
  · intro earlier later member laterMember behind left leftMember right rightMember same
    rw [SiteExpansion.edits_eq] at leftMember rightMember
    rcases List.mem_append.mp leftMember with removal | insertion
    · obtain ⟨span, _, rfl⟩ := List.mem_map.mp removal
      exact .inl (removalEdit_text source span)
    · rcases List.mem_append.mp rightMember with removal | insertionLater
      · obtain ⟨span, _, rfl⟩ := List.mem_map.mp removal
        exact .inr (removalEdit_text source span)
      · -- an attribute of the later site stands between the two
        have laterPlaced := placed.sites later laterMember
        obtain ⟨span, inside⟩ := List.exists_mem_of_ne_nil _ (annotated later laterMember)
        have before := (placed.sites earlier member).insertion_start_lt laterPlaced behind insertion
          inside (ordinary.blank placed laterMember inside).1
        have after := laterPlaced.stop_le_insertion_start insertionLater inside
        obtain ⟨⟨used, usedPlaced, rfl⟩, _⟩ := laterPlaced.macros span inside
        have forward := usedPlaced.fits.ordered
        omega

end FileExpansion

/-! ## The edits of a site as the pass sees them -/

theorem textAt_removals (source : Text) (spans : List Span) (place : Nat) :
    Edit.textAt (spans.map (removalEdit source)) place = [] := by
  induction spans with
  | nil => rfl
  | cons span others inductionHypothesis =>
      rw [List.map_cons]
      by_cases here : (removalEdit source span).start = place
      · rw [Edit.textAt_cons_of_eq here, removalEdit_text, inductionHypothesis]
        rfl
      · rw [Edit.textAt_cons_of_ne here, inductionHypothesis]

/-- The removal of an attribute that stands alone takes its lines. -/
theorem removalEdit_of_alone {source : Text} {span : Span}
    (alone : (source.lineBefore span.start).isBlank = true ∧
      (source.lineAfter span.stop).isBlank = true) :
    removalEdit source span = ⟨source.lineStart span.start, source.nextLine span.stop, []⟩ := by
  simp only [removalEdit, alone.1, alone.2, Bool.and_self, if_true]

/-- Where nothing but whitespace or a line comment follows, peers go behind all of it that is not
whitespace. -/
theorem peerAnchor_of_followed {source : Text} {stop : Nat}
    (followed : (source.lineFrom stop).dropWhile isWhitespace = [] ∨
      "//".toList <+: (source.lineFrom stop).dropWhile isWhitespace) :
    peerAnchor source stop = Text.solidEnd stop (source.lineFrom stop) := by
  have same : Text.solidEnd stop (source.lineFrom stop) =
      stop + Text.size (source.lineAfter stop).trimEnd := rfl
  rw [same]
  simp only [peerAnchor]
  rcases followed with blank | comment
  · have none : (source.lineAfter stop).trimEnd = [] :=
      Text.trimEnd_eq_nil_iff.mpr (List.all_eq_true.mpr (List.dropWhile_eq_nil_iff.mp blank))
    rw [none]
    rfl
  · have commented : "//".toList <+: (source.lineAfter stop).trimStart := comment
    rw [if_pos (isTrailingComment_of_lineComment commented)]

namespace SiteExpansion

variable {site : SiteExpansion} {source unit : Text}

theorem textAt_edits (placed : site.Placed source)
    (laid : ∀ fragment ∈ site.fragments, fragment.Feedless) {declaration : Declaration}
    (declared : site.declaration = some declaration)
    (followed : site.added .peer ≠ [] →
      (source.lineFrom declaration.span.stop).dropWhile isWhitespace = [] ∨
        "//".toList <+: (source.lineFrom declaration.span.stop).dropWhile isWhitespace)
    (place : Nat) : Edit.textAt (site.edits source unit) place = site.putAt source unit place := by
  have memberTexts : site.added .member = site.members.map Fragment.text := rfl
  have peerTexts : site.added .peer = site.peers.map Fragment.text := rfl
  rw [edits_eq, Edit.textAt_append, textAt_removals, List.nil_append, insertions, declared, putAt,
    declared]
  simp only
  rw [Edit.textAt_append]
  congr 1
  · cases bodied : site.body with
    | none => rfl
    | some body =>
        cases listed : site.members with
        | nil => simp [Edit.textAt, memberTexts, listed]
        | cons first others =>
            have nonempty : site.members ≠ [] := by simp [listed]
            have text := membersEdit_text placed
              (fun fragment member => laid fragment (List.mem_of_mem_filter member)) nonempty unit body
            have start := (membersEdit_range source body (source.lineIndent site.span.start) unit
              site.members).1
            have ends : body.start + Text.size (body.text source).trimEnd =
                Text.solidEnd body.start (source.slice body.start body.stop) := rfl
            rw [listed] at text start
            simp only [Edit.textAt_singleton, text, start, ends, memberTexts, listed, List.map_cons, ne_eq,
              reduceCtorEq, not_false_eq_true, true_and]
  · cases listed : site.peers with
    | nil =>
        simp only [peerTexts, listed, List.map_nil, Text.stackedBelow, List.flatMap_nil, ite_self]
        rfl
    | cons first others =>
        have nonempty : site.peers ≠ [] := by simp [listed]
        have anchor := peerAnchor_of_followed (followed (by simp [peerTexts, listed]))
        have stacked := Text.stackedBelow_eq_stackedFragments (source.lineIndent site.span.start)
          nonempty fun fragment member => laid fragment (List.mem_of_mem_filter member)
        rw [listed] at stacked
        simp only [Edit.textAt_singleton, peersEdit, anchor, placed.outerIndent_eq, peerTexts, stacked,
          listed]

theorem covers_removals {spans : List Span} (fits : ∀ span ∈ spans, span.Fits source)
    (alone : ∀ span ∈ spans, (source.lineBefore span.start).isBlank = true ∧
      (source.lineAfter span.stop).isBlank = true) {place : Nat} {char : Char}
    (found : source.CharAt place char) :
    Edit.covers (spans.map (removalEdit source)) place = spans.any fun span =>
      '\n' ∉ source.slice place span.start && '\n' ∉ source.slice span.stop place := by
  induction spans with
  | nil => rfl
  | cons span others inductionHypothesis =>
      obtain ⟨spanFits, othersFit⟩ := List.forall_mem_cons.mp fits
      obtain ⟨spanAlone, othersAlone⟩ := List.forall_mem_cons.mp alone
      have low := spanFits.start.lineStart_le_iff found.boundary
      have high := spanFits.stop.lt_nextLine_iff found
      rw [List.map_cons, Edit.covers_cons, inductionHypothesis othersFit othersAlone,
        removalEdit_of_alone spanAlone, List.any_cons]
      simp only [low, high]

theorem covers_edits (placed : site.Placed source) {declaration : Declaration}
    (declared : site.declaration = some declaration)
    (alone : ∀ span ∈ site.macroSpans, (source.lineBefore span.start).isBlank = true ∧
      (source.lineAfter span.stop).isBlank = true) {place : Nat} {char : Char}
    (found : source.CharAt place char) :
    Edit.covers (site.edits source unit) place = site.drops source place := by
  have fits : ∀ span ∈ site.macroSpans, span.Fits source := by
    intro span inside
    obtain ⟨⟨written, writtenPlaced, rfl⟩, -⟩ := placed.macros span inside
    exact writtenPlaced.fits
  have memberTexts : site.added .member = site.members.map Fragment.text := rfl
  rw [edits_eq, Edit.covers_append, covers_removals fits alone found, insertions, declared, drops]
  simp only
  rw [Edit.covers_append]
  congr 1
  -- peers are put in without covering anything
  refine (congrArg (_ || ·) (Edit.covers_of_empty ?_)).trans ((Bool.or_false _).trans ?_)
  · cases site.peers with
    | nil => exact fun _ member => absurd member List.not_mem_nil
    | cons first others =>
        intro edit member
        cases List.mem_singleton.mp member
        exact Nat.le_refl _
  cases bodied : site.body with
  | none => rfl
  | some body =>
      cases listed : site.members with
      | nil => simp [Edit.covers, memberTexts, listed]
      | cons first others =>
          obtain ⟨start, stop⟩ := membersEdit_range source body (source.lineIndent site.span.start)
            unit (first :: others)
          have ends : body.start + Text.size (body.text source).trimEnd =
              Text.solidEnd body.start (source.slice body.start body.stop) := rfl
          simp only [Edit.covers_singleton, start, stop, ends, memberTexts, listed, List.map_cons, ne_eq,
            reduceCtorEq, not_false_eq_true, decide_true, Bool.true_and]

end SiteExpansion

namespace FileExpansion

theorem ofSource_macroSpans_ne_nil {source : SourceText} {settings : ExpansionSettings}
    {site : SiteExpansion} (member : site ∈ (ofSource source settings).sites) :
    site.macroSpans ≠ [] := by
  obtain ⟨written, inside, rfl⟩ := List.mem_map.mp member
  have hasMacro := ((readSites_placed source.content).1 written inside).hasMacro
  rw [Site.expand_macroSpans]
  exact fun none => hasMacro (List.map_eq_nil_iff.mp none)

end FileExpansion

theorem FileExpansion.walk_edits_eq_pass {expansion : FileExpansion} {source : Text}
    (placed : expansion.Placed source)
    (laid : ∀ site ∈ expansion.sites, ∀ fragment ∈ site.fragments, fragment.Feedless)
    (declares : ∀ site ∈ expansion.sites, ∃ declaration, site.declaration = some declaration)
    (ordinary : expansion.OrdinaryLayout source) (unit : Text) :
    Text.walk (Edit.textAt (expansion.edits source unit))
        (Edit.covers (expansion.edits source unit)) 0 source =
      expansion.pass source unit := by
  apply Text.walk_congr
  · intro place _
    rw [edits, Edit.textAt_flatMap]
    apply List.flatMap_congr
    intro site member
    obtain ⟨declaration, declared⟩ := declares site member
    exact SiteExpansion.textAt_edits (placed.sites site member) (laid site member) declared
      (ordinary.followed site member declaration declared) place
  · intro front head rest split
    have found : source.CharAt (Text.size front) head := ⟨front, rest, split, rfl⟩
    rw [Nat.zero_add, edits, Edit.covers_flatMap, Bool.eq_iff_iff, List.any_eq_true, List.any_eq_true]
    refine exists_congr fun site => and_congr_right fun member => ?_
    obtain ⟨declaration, declared⟩ := declares site member
    rw [SiteExpansion.covers_edits (placed.sites site member) declared
      (fun span inside => ordinary.blank placed member inside) found]

/-- Rendering a file without errors whose layout is ordinary is the header part and one pass over
the source. -/
theorem render_eq_single_pass (source : SourceText) (settings : Settings) (options : RenderOptions)
    (sound : (FileExpansion.ofSource source settings.expansion).hasErrors = false)
    (ordinary : (FileExpansion.ofSource source settings.expansion).OrdinaryLayout source.content) :
    ∃ lead, HeaderPart options.header lead ∧
      (FileExpansion.ofSource source settings.expansion).render source.content options =
        some (lead ++ (FileExpansion.ofSource source settings.expansion).pass source.content
          options.unit) := by
  have placed := FileExpansion.ofSource_placed source settings.expansion
  have disjoint := (placed.disjoint_iff_peersClear options.unit).mpr
    (placed.peersClear_of_ordinary ordinary)
  have single := placed.edits_single
    (fun site member => FileExpansion.ofSource_macroSpans_ne_nil member) ordinary options.unit
  have walked := Edit.apply_eq_walk (fun edit member => placed.edit_fits member) disjoint single
  have passed := FileExpansion.walk_edits_eq_pass placed
    (FileExpansion.fragments_feedless source settings)
    (fun site member => FileExpansion.exists_declaration_of_hasErrors_eq_false sound member)
    ordinary options.unit
  refine ⟨options.lead, options.headerPart, ?_⟩
  rw [FileExpansion.render, sound, walked, passed]
  rfl

/-- An attribute on two lines, peers behind a comment that trails the declaration, and a blank
body that gets members. -/
def nestedStyles : SourceText :=
  ⟨"Styles.swift",
    "enum Styles \x7b\r\n    @Style(subViews:\r\n        [])\r\n    protocol Card \x7b\r\n" ++
    "        func draw()\r\n    \x7d // card\r\n\r\n    @UIComponent\r\n    struct Row \x7b\x7d\r\n\x7d\r\n"⟩

theorem render_eq_single_pass_of_nested_styles :
    (FileExpansion.ofSource nestedStyles (Settings.expansion {})).hasErrors = false ∧
      (FileExpansion.ofSource nestedStyles (Settings.expansion {})).OrdinaryLayout
        nestedStyles.content ∧
      ∃ lead, HeaderPart (some "// Generated, do not edit \n") lead ∧
        (FileExpansion.ofSource nestedStyles (Settings.expansion {})).render nestedStyles.content
            headedOptions =
          some (lead ++ (FileExpansion.ofSource nestedStyles (Settings.expansion {})).pass
            nestedStyles.content (indentUnit 4)) := by
  have sound : (FileExpansion.ofSource nestedStyles (Settings.expansion {})).hasErrors = false := by
    decide +kernel
  have ordinary : (FileExpansion.ofSource nestedStyles (Settings.expansion {})).OrdinaryLayout
      nestedStyles.content :=
    { alone := by decide +kernel
      followed := by decide +kernel }
  exact ⟨sound, ordinary, render_eq_single_pass nestedStyles {} headedOptions sound ordinary⟩

end StyleMacros
