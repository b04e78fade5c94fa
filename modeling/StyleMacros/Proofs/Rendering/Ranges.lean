import StyleMacros.Rendering.File
import StyleMacros.Proofs.Expansion.Placement
import StyleMacros.Proofs.Rendering.Lines

/-!
# What an edit covers

Rendering makes three kinds of edits. A removal covers an attribute and blanks around it, the
insertion of members covers the blanks at the end of a body, and the insertion of peers covers
nothing. Each kind has one statement here that holds all that later facts use of it.
-/

set_option autoImplicit false

namespace StyleMacros

theorem isWhitespace_of_isInlineBlank {char : Char} (blank : isInlineBlank char = true) :
    isWhitespace char = true := by
  simp only [isInlineBlank, Bool.or_eq_true, decide_eq_true_eq] at blank
  rcases blank with rfl | rfl <;> decide

/-! ## Removals -/

/-- The edit takes the span away, with nothing but blanks in front of it and behind it. It
reaches back to the start of a line or not at all, and never beyond the end of the line. -/
structure Edit.Removes (edit : Edit) (source : Text) (span : Span) : Prop where
  start : source.IsBoundary edit.start
  stop : source.IsBoundary edit.stop
  reachesBack : edit.start ≤ span.start
  reachesOn : span.stop ≤ edit.stop
  blankBefore : source.Throughout edit.start span.start isWhitespace
  blankBehind : source.Throughout span.stop edit.stop isWhitespace
  lineStart : edit.start = span.start ∨ edit.start = 0 ∨
    ∃ feed, source.CharAt feed '\n' ∧ feed + 1 = edit.start
  lineStop : ∀ feed, source.CharAt feed '\n' → span.stop ≤ feed → edit.stop ≤ feed + 1

theorem removalEdit_removes {source : Text} {span : Span} (fits : span.Fits source) :
    (removalEdit source span).Removes source span := by
  have start := fits.start
  have stop := fits.stop
  simp only [removalEdit]
  split
  · rename_i alone
    obtain ⟨blankBefore, blankBehind⟩ := Bool.and_eq_true_iff.mp alone
    exact {
      start := start.lineStart_boundary
      stop := stop.nextLine_boundary
      reachesBack := start.lineStart_le
      reachesOn := stop.le_nextLine
      blankBefore := start.blank_before blankBefore
      blankBehind := stop.blank_behind blankBehind
      lineStart := .inr start.lineStart_cases
      lineStop := fun feed found behind => stop.nextLine_le_of_feed found behind }
  · have split := (List.takeWhile_append_dropWhile (p := isInlineBlank)
      (l := source.lineAfter span.stop)).symm
    have blanks : ∀ char ∈ (source.lineAfter span.stop).takeWhile isInlineBlank,
        isWhitespace char = true := fun char member =>
      isWhitespace_of_isInlineBlank (List.mem_takeWhile_imp member)
    exact {
      start := start
      stop := stop.boundary_of_lead split
      reachesBack := Nat.le_refl _
      reachesOn := Nat.le_add_right _ _
      blankBefore := .empty source span.start isWhitespace
      blankBehind := stop.throughout_of_lead split blanks
      lineStart := .inl rfl
      lineStop := by
        intro feed found behind
        have within := stop.lineEnd_le_of_feed found behind
        have sizes := congrArg Text.size split
        rw [Text.size_append] at sizes
        show span.stop + Text.size _ ≤ feed + 1
        omega }

namespace Edit.Removes

variable {source : Text} {span : Span} {edit : Edit}

theorem stop_le_of_solid (removes : edit.Removes source span) {place : Nat} {char : Char}
    (found : source.CharAt place char) (solid : isWhitespace char = false)
    (behind : span.stop ≤ place) : edit.stop ≤ place := by
  rcases removes.blankBehind.outside found solid with before | after
  · omega
  · exact after

theorem lt_start_of_solid (removes : edit.Removes source span) {place : Nat} {char : Char}
    (found : source.CharAt place char) (solid : isWhitespace char = false)
    (before : place < span.start) : place < edit.start := by
  rcases removes.blankBefore.outside found solid with early | late
  · exact early
  · omega

theorem ordered (removes : edit.Removes source span) (fits : span.Fits source) :
    edit.start ≤ edit.stop :=
  (removes.reachesBack.trans fits.ordered).trans removes.reachesOn

end Edit.Removes

/-- The removals of two attributes, one behind the other, do not meet: what the second takes in
front of it starts behind a line feed, at which the first has stopped. -/
theorem Edit.Removes.stop_le_start {source : Text} {first second : Attribute}
    {earlier later : Edit} (removesFirst : earlier.Removes source first.span)
    (removesSecond : later.Removes source second.span) (firstPlaced : first.Placed source)
    (secondPlaced : second.Placed source) (behind : first.span.stop ≤ second.span.start) :
    earlier.stop ≤ later.start := by
  obtain ⟨place, last, found, ends, solid⟩ := firstPlaced.solid
  have positive := last.utf8Size_pos
  have lastBefore : place < later.start :=
    removesSecond.lt_start_of_solid found solid (by omega)
  have lastBehind := found.stop_le_of_lt removesSecond.start lastBefore
  rcases removesSecond.lineStart with same | atStart | ⟨feed, feedFound, feedEnds⟩
  · rw [same]
    exact removesFirst.stop_le_of_solid secondPlaced.opens (by decide) behind
  · -- the first attribute ends in front of the second removal, which cannot start at zero then
    omega
  · have feedBehind : first.span.stop ≤ feed := by
      rcases Nat.lt_trichotomy place feed with before | same | after
      · exact ends ▸ found.stop_le_of_lt feedFound.boundary before
      · subst same
        rw [found.char_eq feedFound] at solid
        exact absurd solid (by decide)
      · have next := feedFound.stop_le_of_lt found.boundary after
        omega
    exact (removesFirst.lineStop feed feedFound feedBehind).trans (Nat.le_of_eq feedEnds)

/-! ## Members -/

/-- The edit replaces the blanks with which the body ends. -/
structure Edit.Fills (edit : Edit) (source : Text) (body : Span) : Prop where
  start : source.IsBoundary edit.start
  behind : body.start ≤ edit.start
  ordered : edit.start ≤ edit.stop
  stop : edit.stop = body.stop
  blank : source.Throughout edit.start edit.stop isWhitespace

theorem membersEdit_range (source : Text) (body : Span) (outer unit : Text)
    (members : List Fragment) :
    (membersEdit source body outer unit members).start =
        body.start + Text.size (body.text source).trimEnd ∧
      (membersEdit source body outer unit members).stop = body.stop := by
  simp only [membersEdit]
  split
  · rename_i empty
    simp [empty]
  · exact ⟨rfl, rfl⟩

theorem membersEdit_fills {source : Text} {body : Span} (fits : body.Fits source)
    (outer unit : Text) (members : List Fragment) :
    (membersEdit source body outer unit members).Fills source body := by
  obtain ⟨front, inner, rest, exact, start, stop⟩ :=
    fits.start.exists_pieces fits.stop fits.ordered
  obtain ⟨startExact, stopExact⟩ := membersEdit_range source body outer unit members
  generalize membersEdit source body outer unit members = edit at startExact stopExact
  have text : body.text source = inner := by
    rw [exact]
    exact Text.slice_append front inner rest _ _ start stop
  rw [text] at startExact
  obtain ⟨blanks, split, blank⟩ := Text.exists_blanks_of_trimEnd inner
  have sizes := congrArg Text.size split
  rw [Text.size_append] at sizes
  have startSize : edit.start = Text.size (front ++ inner.trimEnd) := by
    rw [Text.size_append]
    omega
  have stopSize : edit.stop = Text.size (front ++ inner.trimEnd) + Text.size blanks := by
    rw [Text.size_append]
    omega
  have pieces : source = (front ++ inner.trimEnd) ++ (blanks ++ rest) := by
    rw [exact, List.append_assoc, ← List.append_assoc inner.trimEnd, ← split]
  have holds := Text.Throughout.of_pieces (front ++ inner.trimEnd) rest blank
  rw [← pieces, ← stopSize, ← startSize] at holds
  exact {
    start := ⟨_, _, pieces, startSize.symm⟩
    behind := by omega
    ordered := by omega
    stop := stopExact
    blank := holds }

/-! ## Peers -/

/-- The offset is the end of the declaration, or lies behind a solid character further on. -/
structure Text.Trails (source : Text) (stop anchor : Nat) : Prop where
  boundary : source.IsBoundary anchor
  behind : stop ≤ anchor
  solid : anchor = stop ∨ ∃ place last, stop ≤ place ∧ source.CharAt place last ∧
    place + last.utf8Size = anchor ∧ isWhitespace last = false

/-- A line tail that is not blank, cut behind its last solid character. -/
theorem trails_of_trimEnd {source : Text} {stop : Nat} (boundary : source.IsBoundary stop) :
    source.Trails stop (stop + Text.size (source.lineAfter stop).trimEnd) := by
  obtain ⟨blanks, split, _⟩ := Text.exists_blanks_of_trimEnd (source.lineAfter stop)
  refine ⟨boundary.boundary_of_lead split, Nat.le_add_right _ _, ?_⟩
  by_cases empty : (source.lineAfter stop).trimEnd = []
  · left
    rw [empty]
    rfl
  · right
    obtain ⟨lead, last, exact, solid⟩ := Text.exists_solid_end_of_trimEnd empty
    obtain ⟨front, later, whole, start, _⟩ := boundary.exists_line_tail
    rw [split, exact] at whole
    refine ⟨Text.size (front ++ lead), last, ?_, ⟨front ++ lead, blanks ++ later, ?_, rfl⟩, ?_,
      solid⟩
    · rw [Text.size_append]
      omega
    · rw [whole]
      simp
    · rw [exact]
      simp only [Text.size_append, Text.size_cons, Text.size_nil]
      omega

theorem peerAnchor_trails {source : Text} {stop : Nat} (boundary : source.IsBoundary stop) :
    source.Trails stop (peerAnchor source stop) := by
  simp only [peerAnchor]
  split
  · exact trails_of_trimEnd boundary
  · exact ⟨boundary, Nat.le_refl stop, .inl rfl⟩

/-! ## The edits of a site -/

namespace SiteExpansion

def insertions (site : SiteExpansion) (source unit : Text) : List Edit :=
  match site.declaration with
  | none => []
  | some declaration =>
    let outer := source.lineIndent site.span.start
    (match site.body, site.members with
      | some body, first :: rest => [membersEdit source body outer unit (first :: rest)]
      | _, _ => []) ++
    match site.peers with
    | [] => []
    | first :: rest => [peersEdit source declaration.span.stop outer (first :: rest)]

theorem edits_eq (site : SiteExpansion) (source unit : Text) :
    site.edits source unit =
      site.macroSpans.map (removalEdit source) ++ site.insertions source unit :=
  rfl

variable {site : SiteExpansion} {source unit : Text} {edit : Edit}

theorem mem_insertions_iff {declaration : Declaration}
    (declared : site.declaration = some declaration) :
    edit ∈ site.insertions source unit ↔
      (∃ body, site.body = some body ∧ site.members ≠ [] ∧
        edit = membersEdit source body (source.lineIndent site.span.start) unit site.members) ∨
      (site.peers ≠ [] ∧ edit = peersEdit source declaration.span.stop
        (source.lineIndent site.span.start) site.peers) := by
  unfold insertions
  rw [declared]
  simp only [List.mem_append]
  apply or_congr
  · cases bodied : site.body with
    | none => simp
    | some body => cases listed : site.members <;> simp
  · cases listed : site.peers <;> simp

theorem mem_edits_cases (member : edit ∈ site.edits source unit) :
    (∃ span ∈ site.macroSpans, edit = removalEdit source span) ∨
    (∃ declaration, site.declaration = some declaration ∧
      ((∃ body, site.body = some body ∧ site.members ≠ [] ∧
          edit = membersEdit source body (source.lineIndent site.span.start) unit site.members) ∨
        (site.peers ≠ [] ∧ edit = peersEdit source declaration.span.stop
          (source.lineIndent site.span.start) site.peers))) := by
  rw [edits_eq] at member
  rcases List.mem_append.mp member with removal | insertion
  · obtain ⟨span, inside, exact⟩ := List.mem_map.mp removal
    exact .inl ⟨span, inside, exact.symm⟩
  · right
    cases declared : site.declaration with
    | none =>
        unfold insertions at insertion
        rw [declared] at insertion
        simp at insertion
    | some declaration => exact ⟨declaration, rfl, (mem_insertions_iff declared).mp insertion⟩

end SiteExpansion

theorem SiteExpansion.Placed.removes {site : SiteExpansion} {source : Text} {span : Span}
    (placed : site.Placed source) (member : span ∈ site.macroSpans) :
    (removalEdit source span).Removes source span := by
  obtain ⟨⟨written, writtenPlaced, rfl⟩, _⟩ := placed.macros span member
  exact removalEdit_removes writtenPlaced.fits

/-- Every edit of a placed site runs forward between two boundaries. -/
theorem SiteExpansion.Placed.edit_fits {site : SiteExpansion} {source unit : Text} {edit : Edit}
    (placed : site.Placed source) (member : edit ∈ site.edits source unit) :
    source.IsBoundary edit.start ∧ source.IsBoundary edit.stop ∧ edit.start ≤ edit.stop := by
  rcases site.mem_edits_cases member with
    ⟨span, inside, rfl⟩ | ⟨declaration, declared, ⟨body, bodied, _, rfl⟩ | ⟨_, rfl⟩⟩
  · obtain ⟨⟨written, writtenPlaced, rfl⟩, _⟩ := placed.macros span inside
    have removes := placed.removes inside
    exact ⟨removes.start, removes.stop, removes.ordered writtenPlaced.fits⟩
  · have fits := placed.body body bodied
    have fills := membersEdit_fills fits (source.lineIndent site.span.start) unit site.members
    exact ⟨fills.start, fills.stop ▸ fits.stop, fills.ordered⟩
  · have trails := peerAnchor_trails (placed.stop_boundary declared)
    exact ⟨trails.boundary, trails.boundary, Nat.le_refl _⟩

theorem FileExpansion.Placed.edit_fits {expansion : FileExpansion} {source unit : Text}
    {edit : Edit} (placed : expansion.Placed source) (member : edit ∈ expansion.edits source unit) :
    source.IsBoundary edit.start ∧ source.IsBoundary edit.stop ∧ edit.start ≤ edit.stop := by
  obtain ⟨site, siteMember, inside⟩ := List.mem_flatMap.mp member
  exact (placed.sites site siteMember).edit_fits inside

end StyleMacros
