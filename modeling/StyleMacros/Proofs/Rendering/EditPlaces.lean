import StyleMacros.Proofs.Expansion.Generated
import StyleMacros.Proofs.Rendering.Anchor
import StyleMacros.Proofs.Rendering.Legible
import StyleMacros.Proofs.Rendering.Overlap

/-!
# Where edits begin and end

In a legible source edits begin and end where reading comes to. Each puts a line feed in front of
what it brings, or takes an attribute away and brings nothing.
-/

set_option autoImplicit false

namespace StyleMacros

/-! ## Order -/

theorem FileExpansion.Placed.edits_apart_or_empty {expansion : FileExpansion} {source : Text}
    (placed : expansion.Placed source) (unit : Text) :
    (expansion.edits source unit).Pairwise fun left right =>
      left.Apart right ∨ left.start = left.stop ∨ right.start = right.stop := by
  refine List.pairwise_flatMap.mpr ⟨?_, placed.ordered.imp_of_mem ?_⟩
  · intro site member
    exact ((placed.sites site member).edits_pairwise_apart unit).imp .inl
  · intro earlier later member memberLater behind edit inside other insideLater
    rcases (placed.sites earlier member).edits_apart_or_peers (placed.sites later memberLater)
      behind inside insideLater with apart | ⟨empty, _⟩
    · exact .inl apart
    · exact .inr (.inl empty)

theorem FileExpansion.Placed.sort_nested {expansion : FileExpansion} {source : Text}
    (placed : expansion.Placed source) (unit : Text) :
    (Edit.sort (expansion.edits source unit)).Pairwise fun earlier later =>
      earlier.start ≤ later.start ∧ (earlier.stop ≤ later.start ∨ later.stop ≤ earlier.stop) := by
  have pairs := ((Edit.sort_perm (expansion.edits source unit)).pairwise_iff
    (Or.imp Edit.Apart.symm Or.symm)).mpr (placed.edits_apart_or_empty unit)
  refine (pairs.and (Edit.sort_sorted _)).imp_of_mem ?_
  rintro earlier later member memberLater ⟨meets, le⟩
  have forward := (placed.edit_fits (Edit.mem_sort.mp member)).2.2
  have forwardLater := (placed.edit_fits (Edit.mem_sort.mp memberLater)).2.2
  rw [Edit.le_iff] at le
  simp only [Edit.Apart] at meets
  omega

/-! ## Kinds of edits -/

section Kinds

variable {source : SourceText} {settings : ExpansionSettings} {unit : Text} {edit : Edit}

/-- An edit takes an attribute away that marks a site, or puts a line feed and something behind it
at the end of a body or behind a declaration. -/
theorem FileExpansion.edit_cases
    (member : edit ∈ (FileExpansion.ofSource source settings).edits source.content unit) :
    (∃ span ∈ macroSpans source.content, edit = removalEdit source.content span) ∨
    edit.text.head? = some '\n' ∧ ∃ read ∈ readSites source.content, ∃ written,
      read.target = .declaration written ∧
        (edit.Fills source.content written.body ∧ edit.start =
            written.body.start + Text.size (written.body.text source.content).trimEnd ∨
          edit.start = peerAnchor source.content written.span.stop ∧ edit.stop = edit.start) := by
  obtain ⟨site, siteMember, inside⟩ := List.mem_flatMap.mp member
  obtain ⟨read, readMember, rfl⟩ := List.mem_map.mp siteMember
  have placed := Site.expand_placed settings ((readSites_placed source.content).1 read readMember)
  rcases SiteExpansion.mem_edits_cases inside with
    ⟨span, used, rfl⟩ | ⟨declaration, declared, inserted⟩
  · rw [Site.expand_macroSpans] at used
    exact .inl ⟨span, List.mem_flatMap.mpr ⟨read, readMember, used⟩, rfl⟩
  · right
    obtain ⟨written, target, rfl⟩ := Site.expand_declaration declared
    rcases inserted with ⟨body, bodied, _, rfl⟩ | ⟨_, rfl⟩
    · rw [Site.expand_body, Site.body?, target] at bodied
      cases Option.some.inj bodied
      refine ⟨?_, read, readMember, written, target, .inl ⟨?_, (membersEdit_range _ _ _ _ _).1⟩⟩
      · simp only [membersEdit]
        split <;> rfl
      · exact membersEdit_fills (placed.body _ (by rw [Site.expand_body, Site.body?, target])) _ _ _
    · exact ⟨rfl, read, readMember, written, target, .inr ⟨rfl, rfl⟩⟩

theorem FileExpansion.mem_edits_of_mem_macroSpans {span : Span}
    (marks : span ∈ macroSpans source.content) : removalEdit source.content span ∈
      (FileExpansion.ofSource source settings).edits source.content unit := by
  obtain ⟨read, member, inside⟩ := List.mem_flatMap.mp marks
  refine List.mem_flatMap.mpr ⟨_, List.mem_map_of_mem member, List.mem_append_left _ ?_⟩
  rw [Site.expand_macroSpans]
  exact List.mem_map_of_mem inside

theorem FileExpansion.edit_start_mem_cuts
    (member : edit ∈ (FileExpansion.ofSource source settings).edits source.content unit) :
    edit.start ∈ source.content.cuts := by
  rcases edit_cases member with ⟨span, marks, rfl⟩ | ⟨-, read, readMember, written, target, inserted⟩
  · exact List.mem_append_left _ (List.mem_map_of_mem marks)
  · refine List.mem_append_right _
      (List.mem_flatMap.mpr ⟨written, mem_declarations readMember target, ?_⟩)
    rcases inserted with ⟨-, start⟩ | ⟨start, -⟩
    · exact start ▸ List.mem_cons_self
    · exact start ▸ List.mem_cons_of_mem _ List.mem_cons_self

end Kinds

/-! ## Edits bring no macro -/

theorem stackedFragments_macroFree {lead : Text} (blank : lead.Calm) {fragments : List Fragment}
    (free : ∀ fragment ∈ fragments, fragment.MacroFree) :
    MacroFree (stackedFragments lead fragments) := by
  apply MacroFree.join (by decide)
  intro text member
  obtain ⟨fragment, fragmentMember, rfl⟩ := List.mem_map.mp member
  apply MacroFree.join (by decide)
  intro line lineMember
  obtain ⟨written, writtenMember, rfl⟩ := List.mem_map.mp lineMember
  split
  · exact .of_calm (by decide)
  · exact (MacroFree.of_calm blank).append (free fragment fragmentMember written writtenMember)

theorem lineIndent_calm (source : Text) (offset : Nat) : (source.lineIndent offset).Calm := by
  intro char member
  have blank := List.mem_takeWhile_imp member
  simp only [isInlineBlank, Bool.or_eq_true, decide_eq_true_eq] at blank
  rcases blank with rfl | rfl <;> decide

theorem indentUnit_calm (width : Nat) : (indentUnit width).Calm := by
  intro char member
  rw [List.eq_of_mem_replicate member]
  decide

section Edits

variable {source outer unit : Text}

theorem membersEdit_macroFree (outerBlank : outer.Calm) (unitBlank : unit.Calm) (body : Span)
    {members : List Fragment} (free : ∀ fragment ∈ members, fragment.MacroFree) :
    MacroFree (membersEdit source body outer unit members).text := by
  have block := stackedFragments_macroFree (Text.calm_append.mpr ⟨outerBlank, unitBlank⟩) free
  have feed : MacroFree ['\n'] := .of_calm (by decide)
  have lines := (feed.append block).append (feed.append (.of_calm outerBlank))
  unfold membersEdit
  simp only
  split
  · exact lines
  · exact feed.append lines

theorem peersEdit_macroFree (outerBlank : outer.Calm) (stop : Nat) {peers : List Fragment}
    (free : ∀ fragment ∈ peers, fragment.MacroFree) :
    MacroFree (peersEdit source stop outer peers).text :=
  (MacroFree.of_calm (by decide : Text.Calm ['\n', '\n'])).append
    (stackedFragments_macroFree outerBlank free)

theorem SiteExpansion.edits_macroFree {site : SiteExpansion} (unitBlank : unit.Calm)
    (free : ∀ fragment ∈ site.fragments, fragment.MacroFree) :
    ∀ edit ∈ site.edits source unit, MacroFree edit.text := by
  have membersFree : ∀ fragment ∈ site.members, fragment.MacroFree :=
    fun fragment member => free fragment (List.mem_of_mem_filter member)
  have peersFree : ∀ fragment ∈ site.peers, fragment.MacroFree :=
    fun fragment member => free fragment (List.mem_of_mem_filter member)
  have outerBlank := lineIndent_calm source site.span.start
  intro edit member
  rcases site.mem_edits_cases member with
    ⟨span, _, rfl⟩ | ⟨declaration, _, ⟨body, _, _, rfl⟩ | ⟨_, rfl⟩⟩
  · rw [removalEdit_text]
    exact .of_calm (by decide)
  · exact membersEdit_macroFree outerBlank unitBlank body membersFree
  · exact peersEdit_macroFree outerBlank declaration.span.stop peersFree

theorem FileExpansion.edits_macroFree {source : SourceText} {settings : ExpansionSettings}
    (generatedBlank : settings.unit.Calm) (unitBlank : unit.Calm) :
    ∀ edit ∈ (FileExpansion.ofSource source settings).edits source.content unit,
      MacroFree edit.text := by
  intro edit member
  obtain ⟨site, siteMember, inside⟩ := List.mem_flatMap.mp member
  exact SiteExpansion.edits_macroFree unitBlank
    (FileExpansion.fragments_macroFree generatedBlank siteMember) edit inside

end Edits

/-! ## Edits in a legible source -/

/-- What stands between two boundaries with nothing but blanks between them. -/
theorem Text.Throughout.exists_blanks {source : Text} {start stop : Nat}
    (blank : source.Throughout start stop isWhitespace) (first : source.IsBoundary start)
    (last : source.IsBoundary stop) (ordered : start ≤ stop) :
    ∃ blanks, source.dropBytes start = blanks ++ source.dropBytes stop ∧
      ∀ char ∈ blanks, isWhitespace char = true := by
  obtain ⟨front, inner, rest, exact, startExact, stopExact⟩ := first.exists_pieces last ordered
  refine ⟨inner, ?_, fun char member => ?_⟩
  · have whole := first.dropBytes_eq_slice_append last ordered
    rwa [exact, Text.slice_append front inner rest _ _ startExact stopExact, ← exact] at whole
  · obtain ⟨before, behind, rfl⟩ := List.append_of_mem member
    have positive := char.utf8Size_pos
    apply blank (Text.size (front ++ before)) char ⟨front ++ before, behind ++ rest, by simp [exact], rfl⟩
    · rw [Text.size_append]
      omega
    · simp only [Text.size_append, Text.size_cons] at stopExact ⊢
      omega

namespace Text.Legible

variable {source : Text} (legible : source.Legible)
  (declared : ∀ site ∈ readSites source, ∃ written, site.target = .declaration written)

include legible declared

theorem sites_reached : ∀ site ∈ readSites source, site.ReachedIn source :=
  (legible.sitesFrom_reached declared (.start source) fun _ member => member).1

/-- An attribute that marks a site is read where reading comes to, and passed over as a whole. -/
theorem exists_reached_of_mem_macroSpans {span : Span} (marks : span ∈ macroSpans source) :
    ∃ text behind, source.Reached text ∧ source.dropBytes span.start = text ∧
      source.dropBytes span.stop = behind ∧ past source text = behind := by
  obtain ⟨site, member, written, writtenMember, -, rfl⟩ := exists_site_of_mem_macroSpans marks
  obtain ⟨text, behind, reached, -, read⟩ :=
    (legible.sites_reached declared site member).attributes written writtenMember
  have span := (readAttribute_placed reached.suffix read).2
  have passed := past_of_readAttribute read marks
  have inside : behind <:+ source := passed ▸ reached.past.suffix
  refine ⟨text, behind, reached, ?_, ?_, passed⟩
  · rw [span]
    exact dropBytes_of_suffix reached.suffix
  · rw [span]
    exact dropBytes_of_suffix inside

/-- A removal begins and ends where reading comes to. -/
theorem removal_reached {span : Span} (marks : span ∈ macroSpans source) :
    source.Reached (source.dropBytes (removalEdit source span).start) ∧
      source.Reached (source.dropBytes (removalEdit source span).stop) := by
  have fits := fits_of_mem_macroSpans marks
  have removes := removalEdit_removes fits
  obtain ⟨text, behind, reached, start, stop, passed⟩ :=
    legible.exists_reached_of_mem_macroSpans declared marks
  obtain ⟨before, beforeExact, beforeBlank⟩ :=
    removes.blankBefore.exists_blanks removes.start fits.start removes.reachesBack
  obtain ⟨after, afterExact, afterBlank⟩ :=
    removes.blankBehind.exists_blanks fits.stop removes.stop removes.reachesOn
  constructor
  · rw [start] at beforeExact
    rw [beforeExact]
    exact reached.append_blanks beforeBlank (beforeExact ▸ dropBytes_suffix source _)
  · rw [stop, ← passed] at afterExact
    exact .of_blanks_append afterBlank (afterExact ▸ reached.past)

/-- Nothing is read inside a removal but the attribute and blanks. -/
theorem removal_covers {span : Span} (marks : span ∈ macroSpans source) {head : Char} {rest : Text}
    (later : source.Reached (head :: rest))
    (low : (removalEdit source span).start ≤ source.size - Text.size (head :: rest))
    (high : source.size - Text.size (head :: rest) < (removalEdit source span).stop) :
    source.Marked (head :: rest) ∨ isWhitespace head = true := by
  have fits := fits_of_mem_macroSpans marks
  have removes := removalEdit_removes fits
  have found := charAt_of_suffix later.suffix
  rcases Nat.lt_trichotomy (source.size - Text.size (head :: rest)) span.start with
    front | same | back
  · exact .inr (removes.blankBefore _ _ found low front)
  · left
    rw [← dropBytes_of_suffix later.suffix, same]
    exact ⟨span, marks, rfl⟩
  · right
    obtain ⟨text, behind, reached, start, stop, passed⟩ :=
      legible.exists_reached_of_mem_macroSpans declared marks
    have startSizes := fits.start.size_dropBytes
    have stopSizes := fits.stop.size_dropBytes
    have bound := fits.start.le_size
    have stopBound := fits.stop.le_size
    have sizes := Text.size_le_of_suffix later.suffix
    rw [start] at startSizes
    rw [stop] at stopSizes
    have deeper : (head :: rest) <:+ behind := by
      rw [← passed]
      apply reached.suffix_past later
      exact length_lt_of_size_lt reached.suffix later.suffix (by omega)
    have further := Text.size_le_of_suffix deeper
    exact removes.blankBehind _ _ found (by omega) high

/-- Members go where reading comes to, and take blanks away. -/
theorem fills_reached {site : Site} (member : site ∈ readSites source)
    {written : SourceDeclaration} (target : site.target = .declaration written) {edit : Edit}
    (fills : edit.Fills source written.body) : source.Reached (source.dropBytes edit.start) ∧
      source.Reached (source.dropBytes edit.stop) := by
  have placed := ((readSites_placed source).1 site member).declaration written target
  have last := (legible.sites_reached declared site member).body written target
  obtain ⟨blanks, split, blank⟩ :=
    fills.blank.exists_blanks fills.start (fills.stop ▸ placed.body.stop) fills.ordered
  rw [← fills.stop] at last
  refine ⟨?_, last⟩
  rw [split]
  exact last.append_blanks blank (split ▸ dropBytes_suffix source edit.start)

end Text.Legible

/-! ## Edits that a reading can be carried through -/

/-- The edits begin and end where reading comes to, nothing that they cover but the attributes that
mark sites is read as an attribute, and what they bring is separated from what stands in front. -/
structure Edit.Respects (source : Text) (edits : List Edit) : Prop where
  fits : ∀ edit ∈ edits,
    source.IsBoundary edit.start ∧ source.IsBoundary edit.stop ∧ edit.start ≤ edit.stop
  reached : ∀ edit ∈ edits, source.Reached (source.dropBytes edit.start) ∧
    source.Reached (source.dropBytes edit.stop)
  nested : edits.Pairwise fun earlier later =>
    earlier.start ≤ later.start ∧ (earlier.stop ≤ later.start ∨ later.stop ≤ earlier.stop)
  takes : ∀ text, source.Marked text → ∃ edit ∈ edits,
    edit.start ≤ source.size - text.size ∧ source.size - text.size < edit.stop
  covers : ∀ edit ∈ edits, ∀ head rest, source.Reached (head :: rest) →
    edit.start ≤ source.size - Text.size (head :: rest) →
    source.size - Text.size (head :: rest) < edit.stop →
      source.Marked (head :: rest) ∨ isWhitespace head = true
  begins : ∀ edit ∈ edits, edit.text.head? = some '\n' ∨ edit.text = [] ∧
    (source.Marked (source.dropBytes edit.start) ∨
      ∀ front last, source = front ++ last :: source.dropBytes edit.start → last = '\n')
  splits : ∀ edit ∈ edits, ∀ front last head rest, source = front ++ last :: head :: rest →
    source.dropBytes edit.start = head :: rest → isIdentifierContinue head = true →
      last ≠ '@' ∧ isIdentifierContinue last = false
  cuts : ∀ edit ∈ edits, edit.start ∈ source.cuts
  brings : ∀ edit ∈ edits, MacroFree edit.text

/-- A removal starts with the attribute or behind a line feed. -/
theorem Edit.Removes.marked_or_behind_feed {source : Text} {span : Span} {edit : Edit}
    (removes : edit.Removes source span) (marks : span ∈ macroSpans source) :
    source.Marked (source.dropBytes edit.start) ∨
      ∀ front last, source = front ++ last :: source.dropBytes edit.start → last = '\n' := by
  rcases removes.lineStart with same | atStart | ⟨feed, ⟨before, behind, exact, place⟩, next⟩
  · exact .inl ⟨span, marks, by rw [same]⟩
  · right
    intro front last split
    have whole : source.dropBytes edit.start = source := by
      rw [atStart]
      cases source <;> rfl
    have length := congrArg List.length split
    rw [whole, List.length_append, List.length_cons] at length
    omega
  · right
    intro front last split
    have start : edit.start = Text.size (before ++ ['\n']) := by
      rw [Text.size_append, place, ← next]
      rfl
    have whole : source = before ++ ['\n'] ++ behind := by simp [exact]
    have rest : source.dropBytes edit.start = behind := by
      rw [start, whole]
      exact Text.dropBytes_size_append _ behind
    rw [rest, exact] at split
    exact (List.cons.inj (List.append_inj' split rfl).2).1.symm

theorem Text.CharAt.dropBytes_behind {source : Text} {place : Nat} {char : Char}
    (found : source.CharAt place char) : ∃ front, source =
      front ++ char :: source.dropBytes (place + char.utf8Size) ∧ Text.size front = place := by
  obtain ⟨front, rest, rfl, rfl⟩ := found
  refine ⟨front, ?_, rfl⟩
  have whole := Text.dropBytes_size_append (front ++ [char]) rest
  rw [Text.size_append, List.append_assoc] at whole
  exact congrArg (front ++ char :: ·) whole.symm

/-- What stands where members go is a blank or the brace that closes the body. -/
theorem Edit.Fills.isIdentifierContinue_eq_false {source : Text} {edit : Edit}
    {written : SourceDeclaration} (fills : edit.Fills source written.body)
    (placed : written.Placed source) {head : Char} {rest : Text}
    (start : source.dropBytes edit.start = head :: rest) : isIdentifierContinue head = false := by
  obtain ⟨blanks, whole, blank⟩ :=
    fills.blank.exists_blanks fills.start (fills.stop ▸ placed.body.stop) fills.ordered
  rw [start] at whole
  cases blanks with
  | nil =>
      obtain ⟨before, behind, exact, place⟩ := placed.closes
      rw [fills.stop, exact, ← place, List.nil_append, Text.dropBytes_size_append] at whole
      cases (List.cons.inj whole).1
      decide +kernel
  | cons first others =>
      have spaces := blank first List.mem_cons_self
      rw [← (List.cons.inj whole).1] at spaces
      by_contra continues
      rw [isWhitespace_eq_false_of_isIdentifierContinue (by simpa using continues)] at spaces
      cases spaces

/-- Peers go behind the closing brace, or in front of what is no part of a name. -/
theorem SourceDeclaration.Placed.peerAnchor_splits {source : Text} {written : SourceDeclaration}
    (placed : written.Placed source) {head : Char} {rest : Text}
    (start : source.dropBytes (peerAnchor source written.span.stop) = head :: rest) :
    isIdentifierContinue head = false ∨ ∃ before, source = before ++ '\x7d' :: head :: rest := by
  simp only [peerAnchor] at start
  split at start
  · left
    obtain ⟨tail, -, cut, -, blanks, later, exact, spaces, ends⟩ :=
      placed.fits.stop.exists_trimmed_tail
    rw [start, exact] at cut
    by_contra continues
    have solid := isWhitespace_eq_false_of_isIdentifierContinue (by simpa using continues)
    cases blanks with
    | nil =>
        rcases ends with rfl | ⟨others, rfl⟩
        · cases cut
        · rw [(List.cons.inj cut).1] at solid
          cases solid
    | cons first others =>
        rw [(List.cons.inj cut).1, (spaces first List.mem_cons_self).1] at solid
        cases solid
  · right
    obtain ⟨before, exact, -⟩ := placed.closes.dropBytes_behind
    rw [show Char.utf8Size '\x7d' = 1 from rfl, placed.ends, start] at exact
    exact ⟨before, exact⟩

/-- No edit begins inside a name, or between an at sign and a name. -/
theorem FileExpansion.edit_splits {source : SourceText} {settings : ExpansionSettings} {unit : Text}
    {edit : Edit}
    (member : edit ∈ (FileExpansion.ofSource source settings).edits source.content unit)
    {front rest : Text} {last head : Char} (split : source.content = front ++ last :: head :: rest)
    (start : source.content.dropBytes edit.start = head :: rest)
    (continues : isIdentifierContinue head = true) :
    last ≠ '@' ∧ isIdentifierContinue last = false := by
  rcases edit_cases member with ⟨span, marks, rfl⟩ |
    ⟨-, read, readMember, written, target, ⟨fills, -⟩ | ⟨anchor, -⟩⟩
  · have removes := removalEdit_removes (fits_of_mem_macroSpans marks)
    rcases removes.marked_or_behind_feed marks with marked | feed
    · have atSign := marked.head
      rw [start] at atSign
      cases Option.some.inj atSign
      exact absurd continues (by decide +kernel)
    · cases feed front last (start ▸ split)
      exact ⟨by decide, by decide +kernel⟩
  · have placed := ((readSites_placed source.content).1 read readMember).declaration written target
    rw [fills.isIdentifierContinue_eq_false placed start] at continues
    cases continues
  · have placed := ((readSites_placed source.content).1 read readMember).declaration written target
    rw [anchor] at start
    rcases placed.peerAnchor_splits start with other | ⟨before, exact⟩
    · rw [other] at continues
      cases continues
    · have ending := (List.cons.inj (List.append_inj' (split.symm.trans exact) rfl).2).1
      rw [ending]
      exact ⟨by decide, by decide +kernel⟩

/-- The removal of an attribute that marks a site covers its at sign. -/
theorem Text.Marked.exists_removal {source text : Text} (marked : source.Marked text) :
    ∃ span ∈ macroSpans source, (removalEdit source span).start ≤ source.size - text.size ∧
      source.size - text.size < (removalEdit source span).stop := by
  obtain ⟨inside, used, behind, read, marks, -, place⟩ := marked.exists_readAttribute
  obtain ⟨usedPlaced, span⟩ := readAttribute_placed inside read
  have removes := removalEdit_removes usedPlaced.fits
  have reachesBack := removes.reachesBack
  have reachesOn := removes.reachesOn
  have long : Text.size behind < text.size := by
    obtain ⟨front, rfl⟩ := readAttribute_leavesSuffix source.size _ _ _ read
    cases front with
    | nil => exact absurd (readAttribute_shorter read) (Nat.lt_irrefl _)
    | cons head rest =>
        have positive := head.utf8Size_pos
        simp only [List.cons_append, Text.size_cons, Text.size_append]
        omega
  have sizes := Text.size_le_of_suffix inside
  refine ⟨used.span, marks, ?_⟩
  simp only [span, Span.between] at reachesBack reachesOn ⊢
  omega

theorem FileExpansion.edits_respect (source : SourceText) {settings : ExpansionSettings}
    {unit : Text} (generatedBlank : settings.unit.Calm) (unitBlank : unit.Calm)
    (legible : source.content.Legible)
    (declared : ∀ site ∈ readSites source.content, ∃ written, site.target = .declaration written) :
    Edit.Respects source.content
      (Edit.sort ((FileExpansion.ofSource source settings).edits source.content unit)) := by
  have placed := FileExpansion.ofSource_placed source settings
  constructor
  case fits => exact fun edit member => placed.edit_fits (Edit.mem_sort.mp member)
  case nested => exact placed.sort_nested unit
  case cuts => exact fun edit member => edit_start_mem_cuts (Edit.mem_sort.mp member)
  case splits =>
    intro edit member front last head rest exact start continues
    exact edit_splits (Edit.mem_sort.mp member) exact start continues
  case brings => exact fun edit member =>
    edits_macroFree generatedBlank unitBlank edit (Edit.mem_sort.mp member)
  case takes =>
    intro text marked
    obtain ⟨span, marks, covered⟩ := marked.exists_removal
    exact ⟨_, Edit.mem_sort.mpr (mem_edits_of_mem_macroSpans marks), covered⟩
  case reached =>
    intro edit member
    rcases edit_cases (Edit.mem_sort.mp member) with
      ⟨span, marks, rfl⟩ | ⟨-, read, readMember, written, target, ⟨fills, -⟩ | ⟨start, stop⟩⟩
    · exact legible.removal_reached declared marks
    · exact legible.fills_reached declared readMember target fills
    · rw [stop, start]
      have anchor := legible.anchors written (mem_declarations readMember target)
      exact ⟨anchor, anchor⟩
  case covers =>
    intro edit member head rest reached low high
    rcases edit_cases (Edit.mem_sort.mp member) with
      ⟨span, marks, rfl⟩ | ⟨-, read, readMember, written, target, ⟨fills, -⟩ | ⟨start, stop⟩⟩
    · exact legible.removal_covers declared marks reached low high
    · exact .inr (fills.blank _ _ (charAt_of_suffix reached.suffix) low high)
    · omega
  case begins =>
    intro edit member
    rcases edit_cases (Edit.mem_sort.mp member) with ⟨span, marks, rfl⟩ | ⟨feed, -⟩
    · have removes := removalEdit_removes (fits_of_mem_macroSpans marks)
      exact .inr ⟨removalEdit_text _ _, removes.marked_or_behind_feed marks⟩
    · exact .inl feed

end StyleMacros
