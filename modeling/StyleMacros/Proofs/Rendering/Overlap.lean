import Mathlib.Data.List.Pairwise
import StyleMacros.Proofs.Rendering.Edits
import StyleMacros.Proofs.Rendering.Ranges

/-!
# Which edits meet

Of all edits of a file only two kinds can meet. What is taken for a comment behind a declaration
may run into an attribute further on in the line; the peers of the declaration are then put
inside the range that the removal of the attribute covers, and are lost.
-/

set_option autoImplicit false

namespace StyleMacros

/-! ## Removals and declarations -/

namespace Edit.Removes

variable {source : Text} {span : Span} {edit : Edit} {written : SourceDeclaration}

theorem stop_le_body (removes : edit.Removes source span) (placed : written.Placed source)
    (before : span.stop ≤ written.span.start) : edit.stop ≤ written.body.start := by
  obtain ⟨opening, inside, found, next⟩ := placed.opens
  have stops := removes.stop_le_of_solid found (by decide) (before.trans inside)
  omega

theorem body_lt_start (removes : edit.Removes source span) (placed : written.Placed source)
    (behind : written.span.stop ≤ span.start) : written.body.stop < edit.start := by
  have ends := placed.ends
  exact removes.lt_start_of_solid placed.closes (by decide) (by omega)

end Edit.Removes

/-! ## Peers -/

/-- Peers go right behind a solid character, which is the closing brace or one further on. -/
theorem SourceDeclaration.Placed.exists_solid_before_anchor {source : Text}
    {written : SourceDeclaration} (placed : written.Placed source) :
    ∃ place last, written.body.stop ≤ place ∧ source.CharAt place last ∧
      place + last.utf8Size = peerAnchor source written.span.stop ∧ isWhitespace last = false := by
  have ends := placed.ends
  rcases (peerAnchor_trails placed.fits.stop).solid with same | ⟨place, last, behind, found⟩
  · exact ⟨written.body.stop, '\x7d', Nat.le_refl _, placed.closes, ends.trans same.symm, by decide⟩
  · exact ⟨place, last, by omega, found⟩

/-- Where peers go, there is neither a range of blanks nor the end of one. -/
theorem SourceDeclaration.Placed.anchor_outside {source : Text} {written : SourceDeclaration}
    (placed : written.Placed source) {start stop : Nat} (boundary : source.IsBoundary start)
    (blank : source.Throughout start stop isWhitespace) :
    peerAnchor source written.span.stop ≤ start ∨ stop < peerAnchor source written.span.stop := by
  obtain ⟨place, last, _, found, next, solid⟩ := placed.exists_solid_before_anchor
  have positive := last.utf8Size_pos
  rcases blank.outside found solid with before | after
  · left
    exact next ▸ found.stop_le_of_lt boundary before
  · right
    omega

/-- The place where peers go is no place inside the attribute nor inside the blanks that are
removed behind it. -/
def Span.ClearOf (span : Span) (source : Text) (anchor : Nat) : Prop :=
  anchor ≤ span.start ∨ (removalEdit source span).stop ≤ anchor

instance (span : Span) (source : Text) (anchor : Nat) : Decidable (span.ClearOf source anchor) :=
  inferInstanceAs (Decidable (_ ∨ _))

theorem SourceDeclaration.Placed.peers_apart_removal_iff {source : Text}
    {written : SourceDeclaration} (placed : written.Placed source) {span : Span}
    (fits : span.Fits source) (outer : Text) (peers : List Fragment) :
    (peersEdit source written.span.stop outer peers).Apart (removalEdit source span) ↔
      span.ClearOf source (peerAnchor source written.span.stop) := by
  have removes := removalEdit_removes fits
  have reachesBack := removes.reachesBack
  have reachesOn := removes.reachesOn
  have outside := placed.anchor_outside removes.start removes.blankBefore
  simp only [Edit.Apart, Span.ClearOf, peersEdit]
  omega

/-! ## The edits of two sites -/

namespace SiteExpansion

/-- The edit inserts for the declaration: at the end of its body, or behind it. -/
inductive InsertsFor (site : SiteExpansion) (source : Text) (written : SourceDeclaration)
    (edit : Edit) : Prop
  | members (fills : edit.Fills source written.body)
  | peers (outer : Text) (some : site.peers ≠ [])
      (exact : edit = peersEdit source written.span.stop outer site.peers)

variable {site : SiteExpansion} {source unit : Text} {edit : Edit}

theorem Placed.exists_insertsFor (placed : site.Placed source)
    (member : edit ∈ site.insertions source unit) :
    ∃ declaration written, site.declaration = some declaration ∧
      declaration.span = written.span ∧ site.Encloses source written ∧
      site.InsertsFor source written edit := by
  cases declared : site.declaration with
  | none =>
      unfold insertions at member
      rw [declared] at member
      simp at member
  | some declaration =>
      obtain ⟨written, spanExact, encloses⟩ := placed.declaration declaration declared
      refine ⟨declaration, written, rfl, spanExact, encloses, ?_⟩
      rcases (mem_insertions_iff declared).mp member with ⟨body, bodied, _, rfl⟩ | ⟨peered, rfl⟩
      · cases Option.some.inj (encloses.body.symm.trans bodied)
        exact .members (membersEdit_fills encloses.placed.body _ unit site.members)
      · exact .peers _ peered (by rw [spanExact])

theorem InsertsFor.body_start_le {written : SourceDeclaration}
    (inserts : site.InsertsFor source written edit) (placed : written.Placed source) :
    written.body.start ≤ edit.start := by
  have ends := placed.ends
  have forward := placed.body.ordered
  cases inserts with
  | members fills => exact fills.behind
  | peers outer _ exact =>
      have behind := (peerAnchor_trails placed.fits.stop).behind
      subst exact
      simp only [peersEdit]
      omega

/-- Where the peers of the site go is no place inside what the removal of the attribute takes. -/
def PeersClearOf (site : SiteExpansion) (source : Text) (span : Span) : Prop :=
  ∀ declaration ∈ site.declaration, site.peers ≠ [] →
    span.ClearOf source (peerAnchor source declaration.span.stop)

/-- Insertions for two declarations, one behind the other, do not meet. -/
theorem InsertsFor.apart {earlier later : SiteExpansion} {written writtenLater : SourceDeclaration}
    {other : Edit} (inserts : earlier.InsertsFor source written edit)
    (insertsLater : later.InsertsFor source writtenLater other) (placed : written.Placed source)
    (placedLater : writtenLater.Placed source)
    (behind : written.span.stop ≤ writtenLater.span.start) : edit.Apart other := by
  cases inserts with
  | members fills =>
      left
      obtain ⟨opening, inside, _, next⟩ := placedLater.opens
      have starts := insertsLater.body_start_le placedLater
      have ends := placed.ends
      have stops := fills.stop
      omega
  | peers outer _ exact =>
      subst exact
      cases insertsLater with
      | members fills =>
          exact (placed.anchor_outside fills.start fills.blank).imp id Nat.le_of_lt
      | peers outerLater _ exact =>
          subst exact
          simp only [Edit.Apart, peersEdit]
          omega

theorem Placed.removals_ordered {earlier later : SiteExpansion} {span spanLater : Span}
    (placed : earlier.Placed source) (placedLater : later.Placed source)
    (inside : span ∈ earlier.macroSpans) (insideLater : spanLater ∈ later.macroSpans)
    (behind : span.stop ≤ spanLater.start) :
    (removalEdit source span).stop ≤ (removalEdit source spanLater).start := by
  obtain ⟨⟨first, firstPlaced, rfl⟩, _⟩ := placed.macros span inside
  obtain ⟨⟨second, secondPlaced, rfl⟩, _⟩ := placedLater.macros spanLater insideLater
  exact (placed.removes inside).stop_le_start (placedLater.removes insideLater) firstPlaced
    secondPlaced behind

/-- The edits of two sites, one behind the other, meet only where the peers of the first go
inside what an attribute of the second takes away. -/
theorem Placed.edits_apart_or_peers {earlier later : SiteExpansion} {other : Edit}
    (placed : earlier.Placed source) (placedLater : later.Placed source)
    (behind : earlier.span.stop ≤ later.span.start)
    (member : edit ∈ earlier.edits source unit) (memberLater : other ∈ later.edits source unit) :
    edit.Apart other ∨
      edit.start = edit.stop ∧ ∃ span ∈ later.macroSpans, ¬ earlier.PeersClearOf source span := by
  rw [edits_eq] at member memberLater
  rcases List.mem_append.mp member with removal | insertion
  · left
    left
    obtain ⟨span, inside, rfl⟩ := List.mem_map.mp removal
    obtain ⟨_, _, stops⟩ := placed.macros span inside
    rcases List.mem_append.mp memberLater with removal | insertion
    · obtain ⟨spanLater, insideLater, rfl⟩ := List.mem_map.mp removal
      obtain ⟨_, starts, _⟩ := placedLater.macros spanLater insideLater
      exact placed.removals_ordered placedLater inside insideLater (by omega)
    · obtain ⟨_, written, _, _, encloses, inserts⟩ := placedLater.exists_insertsFor insertion
      have starts := encloses.starts
      exact ((placed.removes inside).stop_le_body encloses.placed (by omega)).trans
        (inserts.body_start_le encloses.placed)
  · obtain ⟨declaration, written, declared, spanExact, encloses, inserts⟩ :=
      placed.exists_insertsFor insertion
    have stops := encloses.stops
    rcases List.mem_append.mp memberLater with removal | insertionLater
    · obtain ⟨span, inside, rfl⟩ := List.mem_map.mp removal
      obtain ⟨⟨second, secondPlaced, rfl⟩, starts, _⟩ := placedLater.macros span inside
      cases inserts with
      | members fills =>
          -- the closing brace stands between the two
          left
          left
          have ahead := (placedLater.removes inside).body_lt_start encloses.placed (by omega)
          exact fills.stop ▸ Nat.le_of_lt ahead
      | peers outer peered exact =>
          -- the one pair that the layout of the sites does not keep apart
          subst exact
          by_cases clear : earlier.PeersClearOf source second.span
          · left
            have free := clear declaration declared peered
            rw [spanExact] at free
            exact (encloses.placed.peers_apart_removal_iff secondPlaced.fits outer _).mpr free
          · exact .inr ⟨rfl, second.span, inside, clear⟩
    · left
      obtain ⟨_, writtenLater, _, _, enclosesLater, insertsLater⟩ :=
        placedLater.exists_insertsFor insertionLater
      have starts := enclosesLater.starts
      exact inserts.apart insertsLater encloses.placed enclosesLater.placed (by omega)

theorem Placed.edits_apart {earlier later : SiteExpansion} {other : Edit}
    (placed : earlier.Placed source) (placedLater : later.Placed source)
    (behind : earlier.span.stop ≤ later.span.start)
    (clear : ∀ span ∈ later.macroSpans, earlier.PeersClearOf source span)
    (member : edit ∈ earlier.edits source unit) (memberLater : other ∈ later.edits source unit) :
    edit.Apart other := by
  rcases placed.edits_apart_or_peers placedLater behind member memberLater with
    apart | ⟨_, span, inside, meets⟩
  · exact apart
  · exact absurd (clear span inside) meets

theorem Placed.insertions_ordered (placed : site.Placed source) (unit : Text) :
    (site.insertions source unit).Pairwise fun earlier later => earlier.stop < later.start := by
  unfold insertions
  cases declared : site.declaration with
  | none => exact .nil
  | some declaration =>
      obtain ⟨written, spanExact, encloses⟩ := placed.declaration declaration declared
      refine List.pairwise_append.mpr ⟨?_, ?_, ?_⟩
      · split <;> simp
      · split <;> simp
      · intro edit member other otherMember
        split at member
        · rename_i body first rest bodied _
          split at otherMember
          · simp at otherMember
          · cases List.mem_singleton.mp member
            cases List.mem_singleton.mp otherMember
            cases Option.some.inj (encloses.body.symm.trans bodied)
            have fills := membersEdit_fills encloses.placed.body
              (source.lineIndent site.span.start) unit (first :: rest)
            have ends := encloses.placed.ends
            have ahead := (peerAnchor_trails encloses.placed.fits.stop).behind
            have stops := fills.stop
            simp only [peersEdit, spanExact]
            omega
        · simp at member

theorem Placed.insertions_pairwise_apart (placed : site.Placed source) (unit : Text) :
    (site.insertions source unit).Pairwise Edit.Apart :=
  (placed.insertions_ordered unit).imp fun before => .inl (Nat.le_of_lt before)

/-- The edits of one site do not meet. -/
theorem Placed.edits_pairwise_apart (placed : site.Placed source) (unit : Text) :
    (site.edits source unit).Pairwise Edit.Apart := by
  rw [edits_eq]
  refine List.pairwise_append.mpr ⟨?_, ?_, ?_⟩
  · refine List.pairwise_map.mpr (placed.ordered.imp_of_mem ?_)
    intro span spanLater inside insideLater behind
    exact .inl (placed.removals_ordered placed inside insideLater behind)
  · exact placed.insertions_pairwise_apart unit
  · intro edit removal other insertion
    left
    obtain ⟨span, inside, rfl⟩ := List.mem_map.mp removal
    obtain ⟨_, written, _, _, encloses, inserts⟩ := placed.exists_insertsFor insertion
    exact ((placed.removes inside).stop_le_body encloses.placed
      (encloses.behindMacros span inside)).trans (inserts.body_start_le encloses.placed)

end SiteExpansion

/-! ## The edits of a file -/

theorem removalEdit_text (source : Text) (span : Span) : (removalEdit source span).text = [] := by
  simp only [removalEdit]
  split <;> rfl

namespace FileExpansion

/-- No peers go inside what the removal of an attribute takes. -/
def PeersClear (expansion : FileExpansion) (source : Text) : Prop :=
  ∀ site ∈ expansion.sites, ∀ other ∈ expansion.sites, ∀ span ∈ other.macroSpans,
    site.PeersClearOf source span

variable {expansion : FileExpansion} {source : Text}

/-- Edits meet only where peers go inside what the removal of an attribute takes. -/
theorem Placed.disjoint_iff_peersClear (placed : expansion.Placed source) (unit : Text) :
    Edit.Disjoint (expansion.edits source unit) ↔ expansion.PeersClear source := by
  rw [Edit.disjoint_iff_pairwise_apart]
  · constructor
    · intro apart site siteMember other otherMember span inside declaration declared peered
      have symmetric : Std.Symm Edit.Apart := ⟨fun _ _ => Edit.Apart.symm⟩
      obtain ⟨written, spanExact, encloses⟩ :=
        (placed.sites site siteMember).declaration declaration declared
      obtain ⟨⟨named, namedPlaced, rfl⟩, _⟩ := (placed.sites other otherMember).macros span inside
      rw [spanExact, ← encloses.placed.peers_apart_removal_iff namedPlaced.fits
        (source.lineIndent site.span.start) site.peers]
      apply apart.forall
      · refine List.mem_flatMap.mpr ⟨site, siteMember, List.mem_append_right _ ?_⟩
        exact (SiteExpansion.mem_insertions_iff declared).mpr (.inr ⟨peered, by rw [spanExact]⟩)
      · refine List.mem_flatMap.mpr ⟨other, otherMember, List.mem_append_left _ ?_⟩
        exact List.mem_map_of_mem inside
      · intro same
        have texts := congrArg Edit.text same
        rw [removalEdit_text] at texts
        cases texts
    · intro clear
      refine List.pairwise_flatMap.mpr ⟨?_, placed.ordered.imp_of_mem ?_⟩
      · intro site member
        exact (placed.sites site member).edits_pairwise_apart unit
      · intro earlier later member memberLater behind edit inside other insideLater
        exact (placed.sites earlier member).edits_apart (placed.sites later memberLater) behind
          (fun span used => clear earlier member later memberLater span used) inside insideLater
  · exact fun edit member => (placed.edit_fits member).2.2

end FileExpansion

end StyleMacros
