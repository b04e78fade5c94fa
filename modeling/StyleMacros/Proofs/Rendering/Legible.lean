import Mathlib.Data.List.Infix
import StyleMacros.Proofs.Rendering.Ranges
import StyleMacros.Proofs.Source.Reading
import StyleMacros.Proofs.Text.Marks

/-!
# Legible sources

In a legible source every comment, literal and argument list is what it is by itself, whatever is
put behind it once the macro attributes have gone. Then the sites, their attributes and their bodies
begin and end where reading comes to, and every attribute that names a macro stands in a site.
-/

set_option autoImplicit false

namespace StyleMacros

/-! ## Where rendering changes a source -/

namespace Text

/-- An attribute that marks a site begins at the head of the end part `text`. -/
def Marked (source text : Text) : Prop :=
  ∃ span ∈ macroSpans source, source.dropBytes span.start = text

def declarations (source : Text) : List SourceDeclaration :=
  (readSites source).filterMap fun site =>
    match site.target with
    | .declaration written => some written
    | _ => none

/-- The places at which rendering may begin to change the source. -/
def cuts (source : Text) : List Nat :=
  (macroSpans source).map (fun span => (removalEdit source span).start) ++
    source.declarations.flatMap fun written =>
      [written.body.start + Text.size (written.body.text source).trimEnd,
        peerAnchor source written.span.stop]

/-- No change begins in the stretch that stands in front of the end part `behind`. -/
def Uncut (source stretch behind : Text) : Prop :=
  ∀ front rest, stretch = front ++ rest → rest ≠ [] →
    ∀ cut ∈ source.cuts, source.dropBytes cut ≠ rest ++ behind

theorem uncut_iff_tails {source stretch behind : Text} : source.Uncut stretch behind ↔
    ∀ rest ∈ stretch.tails, rest ≠ [] → ∀ cut ∈ source.cuts,
      source.dropBytes cut ≠ rest ++ behind := by
  constructor
  · intro uncut rest member
    obtain ⟨front, split⟩ := (List.mem_tails rest stretch).mp member
    exact uncut front rest split.symm
  · intro holds front rest split
    exact holds rest ((List.mem_tails rest stretch).mpr ⟨front, split.symm⟩)

instance (source stretch behind : Text) : Decidable (source.Uncut stretch behind) :=
  decidable_of_iff _ uncut_iff_tails.symm

/-- What may come to stand where the end part `behind` stood: the same, or generated text, which
begins with a line feed, or anything, where an attribute goes. -/
def Replaces (source behind other : Text) : Prop :=
  other.head? = behind.head? ∨ other.head? = some '\n' ∨ source.Marked behind

/-! ## Legible sources -/

/-- A quote opens a literal that closes, whatever comes to stand behind it, or one that nothing on
its line closes. Nothing changes on the line of such a lone quote. -/
inductive QuoteSettled (source : Text) : Text → Prop
  | closed {inner behind : Text} (closes : ∀ other, source.Replaces behind other →
      Region.afterQuoted? ('"' :: (inner ++ other)) = some other) :
      QuoteSettled source (inner ++ behind)
  | lone {line behind : Text} (inLine : '\n' ∉ line) (ends : behind.LineEnds)
      (uncut : source.Uncut line behind)
      (opensNone : ∀ other, LineEnds other → Region.afterQuoted? ('"' :: (line ++ other)) = none) :
      QuoteSettled source (line ++ behind)

/-- What a reader of Swift takes for granted. Comments and literals close, as do the arguments of an
attribute that stays; the braces of bodies stand outside of them; the comment that peers are put
behind is a whole one; and an attribute that goes leaves no slash, at sign or name behind for what
follows it. -/
structure Legible (source : Text) : Prop where
  comments : ∀ content, source.Reached ('/' :: '*' :: content) →
    ∃ inner behind, content = inner ++ behind ∧
      ∀ other, Region.comment.finish? (inner ++ other) = some other
  literals : ∀ content, source.Reached ('"' :: content) → source.QuoteSettled content
  arguments : ∀ name content : Text, source.Reached ('@' :: (name ++ '(' :: content)) →
    name.isIdentifier = true → MacroName.ofText? name = none →
      ∃ inner behind, content = inner ++ behind ∧ source.Reached behind ∧
        source.Uncut ('(' :: inner) behind ∧
        ∀ other, afterArguments? ('(' :: (inner ++ other)) = some other
  bodies : ∀ written ∈ source.declarations, source.Reached (source.dropBytes written.body.start)
  anchors : ∀ written ∈ source.declarations,
    source.Reached (source.dropBytes (peerAnchor source written.span.stop))
  apart : ∀ lead text, source.Reached (lead ++ text) → source.Marked text →
    lead ≠ ['/'] ∧ ∀ name, (∀ char ∈ name, isIdentifierContinue char = true) → lead ≠ '@' :: name

end Text

variable {source : Text}

/-! ## Attributes that mark sites -/

theorem dropBytes_of_suffix {text : Text} (inside : text <:+ source) :
    source.dropBytes (source.size - text.size) = text := by
  obtain ⟨front, rfl⟩ := inside
  rw [Text.size_append, Nat.add_sub_cancel, Text.dropBytes_size_append]

theorem dropBytes_suffix (source : Text) (place : Nat) : source.dropBytes place <:+ source :=
  ⟨_, Text.takeBytes_append_dropBytes place source⟩

theorem mem_declarations {site : Site} (member : site ∈ readSites source)
    {written : SourceDeclaration} (target : site.target = .declaration written) :
    written ∈ source.declarations :=
  List.mem_filterMap.mpr ⟨site, member, by rw [target]⟩

theorem mem_macroSpans_of_mem {site : Site} (member : site ∈ readSites source) {written : Attribute}
    (inside : written ∈ site.attributes) (named : written.macroName? ≠ none) :
    written.span ∈ macroSpans source := by
  obtain ⟨name, found⟩ := Option.ne_none_iff_exists'.mp named
  refine List.mem_flatMap.mpr ⟨site, member, List.mem_map.mpr ⟨(name, written), ?_, rfl⟩⟩
  exact List.mem_filterMap.mpr ⟨written, inside, by rw [found]; rfl⟩

theorem exists_site_of_mem_macroSpans {span : Span} (marks : span ∈ macroSpans source) :
    ∃ site ∈ readSites source, ∃ written ∈ site.attributes, written.macroName? ≠ none ∧
      written.span = span := by
  obtain ⟨site, member, inside⟩ := List.mem_flatMap.mp marks
  obtain ⟨⟨name, written⟩, used, rfl⟩ := List.mem_map.mp inside
  obtain ⟨found, foundMember, exact⟩ := List.mem_filterMap.mp used
  obtain ⟨same, named, pair⟩ := Option.map_eq_some_iff.mp exact
  cases pair
  exact ⟨site, member, written, foundMember, by rw [named]; nofun, rfl⟩

theorem fits_of_mem_macroSpans {span : Span} (marks : span ∈ macroSpans source) :
    span.Fits source := by
  obtain ⟨site, member, written, inside, -, rfl⟩ := exists_site_of_mem_macroSpans marks
  exact (((readSites_placed source).1 site member).attributes written inside).1.fits

theorem exists_readAttribute_of_mem {site : Site} (member : site ∈ readSites source)
    {written : Attribute} (inside : written ∈ site.attributes) :
    ∃ text behind, text <:+ source ∧ readAttribute source.size text = some (written, behind) := by
  obtain ⟨start, rest, startInside, success⟩ := exists_readSite_of_mem member
  obtain ⟨first, others, behind, last, listed, firstRead, later, -⟩ := readSite_exposes_parts success
  obtain ⟨text, after, suffix, read⟩ := ReadsInTurn.exists_read
    (readAttribute_leavesSuffix source.size) (.of_readAttribute firstRead later) written
    (listed ▸ inside)
  exact ⟨text, after, suffix.trans startInside, read⟩

namespace Text

theorem Marked.exists_readAttribute {text : Text} (marked : source.Marked text) :
    text <:+ source ∧ ∃ written behind,
      readAttribute source.size text = some (written, behind) ∧
        written.span ∈ macroSpans source ∧ written.macroName? ≠ none ∧
        written.span.start = source.size - text.size := by
  obtain ⟨span, marks, rfl⟩ := marked
  obtain ⟨site, member, written, inside, named, rfl⟩ := exists_site_of_mem_macroSpans marks
  obtain ⟨text, behind, textInside, read⟩ := exists_readAttribute_of_mem member inside
  have start : written.span.start = source.size - Text.size text := by
    rw [(readAttribute_placed textInside read).2]
    rfl
  rw [start, dropBytes_of_suffix textInside]
  exact ⟨textInside, written, behind, read, marks, named, start⟩

theorem marked_of_readAttribute {text behind : Text} {written : Attribute} (inside : text <:+ source)
    (read : readAttribute source.size text = some (written, behind))
    (marks : written.span ∈ macroSpans source) : source.Marked text := by
  refine ⟨written.span, marks, ?_⟩
  rw [(readAttribute_placed inside read).2]
  exact dropBytes_of_suffix inside

theorem past_of_not_marked {text : Text} (inside : text <:+ source) (unmarked : ¬ source.Marked text) :
    past source text = text.behindToken :=
  past_of_notMem fun _ _ read marks => unmarked (marked_of_readAttribute inside read marks)

theorem Marked.head {text : Text} (marked : source.Marked text) : text.head? = some '@' := by
  obtain ⟨-, written, behind, read, -⟩ := marked.exists_readAttribute
  obtain ⟨rest, rfl, -⟩ := readAttribute_exposes_parts read
  rfl

theorem macroName?_of_marked {text behind : Text} {written : Attribute}
    (read : readAttribute source.size text = some (written, behind)) (marked : source.Marked text) :
    written.macroName? ≠ none := by
  obtain ⟨-, other, after, otherRead, -, named, -⟩ := marked.exists_readAttribute
  rw [read] at otherRead
  cases otherRead
  exact named

theorem Reached.of_calm_append {words rest : Text} (calm : words.Calm)
    (reached : source.Reached (words ++ rest)) : source.Reached rest := by
  induction words with
  | nil => exact reached
  | cons head others inductionHypothesis =>
      have plain := calm head List.mem_cons_self
      have passed := reached.behindToken (by rintro rfl; exact absurd plain (by decide))
      rw [behindToken_of_notMem fun member => plain (List.mem_cons_of_mem '@' member)] at passed
      exact inductionHypothesis (fun char member => calm char (List.mem_cons_of_mem head member)) passed

/-- What stands in front of an attribute does not join with what stands behind it, unless its last
character is a slash, an at sign or part of a name. -/
theorem apart_of_last {source text front lead : Text} {last : Char}
    (split : source = front ++ last :: text) (noSlash : last ≠ '/') (noMark : last ≠ '@')
    (noWord : isIdentifierContinue last = false) (inside : lead ++ text <:+ source) :
    lead ≠ ['/'] ∧ ∀ name, (∀ char ∈ name, isIdentifierContinue char = true) → lead ≠ '@' :: name := by
  have ends (others : Text) (final : Char) (same : lead = others ++ [final]) : final = last := by
    obtain ⟨before, whole⟩ := inside
    rw [split, same, ← List.append_assoc, ← List.append_assoc, List.append_cons front] at whole
    exact (List.cons.inj (List.append_inj' (List.append_cancel_right whole) rfl).2).1
  refine ⟨fun slash => noSlash (ends [] '/' slash).symm, fun name word mark => ?_⟩
  rcases List.eq_nil_or_concat' name with rfl | ⟨others, final, rfl⟩
  · exact noMark (ends [] '@' mark).symm
  · rw [ends ('@' :: others) final mark] at word
    rw [word last (by simp)] at noWord
    cases noWord

/-- An attribute that stays is passed over token by token, and ends where reading comes to. -/
theorem Legible.attribute_reached (legible : source.Legible) {text behind : Text}
    {written : Attribute} (reached : source.Reached text)
    (read : readAttribute source.size text = some (written, behind))
    (foreign : written.macroName? = none) : source.Reached behind := by
  have inside := reached.suffix
  have unmarked : ¬ source.Marked text := fun marked => macroName?_of_marked read marked foreign
  obtain ⟨rest, rfl, word, ends, rfl⟩ := readAttribute_eq (Text.size_le_of_suffix inside) read
  have named : source.Reached rest := by
    have passed := reached.past
    rw [past_of_not_marked inside unmarked, behindToken_of_notMem (by decide)] at passed
    exact passed.of_calm_append (markless_of_isIdentifier word).calm
  cases found : rest.afterArguments? with
  | none => exact named
  | some last =>
      obtain ⟨content, rfl⟩ : ∃ content, rest = '(' :: content := by
        unfold afterArguments? readArguments at found
        split at found
        · exact ⟨_, rfl⟩
        · cases found
      obtain ⟨inner, behind, rfl, later, -, closes⟩ :=
        legible.arguments _ _ reached word foreign
      rw [closes behind] at found
      cases found
      exact later

end Text

/-! ## Sites one behind the other -/

/-- No attribute that marks a site begins in the body of a site. -/
theorem outside_body_of_mem_macroSpans {site : Site} (member : site ∈ readSites source)
    {written : SourceDeclaration} (target : site.target = .declaration written) {span : Span}
    (marks : span ∈ macroSpans source) :
    span.start < written.body.start ∨ written.body.stop < span.start := by
  have placed := (readSites_placed source).1 site member
  obtain ⟨fits, behind, within⟩ := placed.target written.span (by rw [target]; rfl)
  obtain ⟨opening, starts, _, next⟩ := (placed.declaration written target).opens
  have ends := (placed.declaration written target).ends
  obtain ⟨first, others, listed, start⟩ := placed.starts
  have firstMember : first ∈ site.attributes := listed ▸ List.mem_cons_self
  have firstBehind := behind first firstMember
  have firstForward := (placed.attributes first firstMember).1.fits.ordered
  obtain ⟨other, otherMember, used, usedMember, -, rfl⟩ := exists_site_of_mem_macroSpans marks
  have otherPlaced := (readSites_placed source).1 other otherMember
  obtain ⟨usedPlaced, low, high⟩ := otherPlaced.attributes used usedMember
  have forward := usedPlaced.fits.ordered
  rcases eq_or_apart_of_pairwise (readSites_placed source).2 member otherMember with rfl | before | after
  · have inFront := behind used usedMember
    omega
  · omega
  · omega

/-! ## What reading comes to at a site -/

/-- Reading comes to the start and to the end of each attribute of the site, and to the end of its
body. -/
structure Site.ReachedIn (site : Site) (source : Text) : Prop where
  attributes : ∀ written ∈ site.attributes, ∃ text behind, source.Reached text ∧
    source.Reached behind ∧ readAttribute source.size text = some (written, behind)
  body : ∀ written, site.target = .declaration written →
    source.Reached (source.dropBytes written.body.stop)

namespace Text.Legible

variable (legible : source.Legible)

include legible

theorem attributes_reached {text last : Text} {read : List Attribute}
    (run : ReadsInTurn (readAttribute source.size) text read last) (reached : source.Reached text)
    (marks : ∀ written ∈ read, written.macroName? ≠ none → written.span ∈ macroSpans source) :
    source.Reached last ∧ ∀ written ∈ read, ∃ text behind, source.Reached text ∧
      source.Reached behind ∧ readAttribute source.size text = some (written, behind) := by
  induction run with
  | done text => exact ⟨reached, by simp⟩
  | @next text rest last first others success later inductionHypothesis =>
      have start := reached.skipTrivia
      have passed : source.Reached rest := by
        by_cases named : first.macroName? = none
        · exact legible.attribute_reached start success named
        · rw [← past_of_readAttribute success (marks first List.mem_cons_self named)]
          exact start.past
      obtain ⟨ends, each⟩ := inductionHypothesis passed
        fun written member => marks written (List.mem_cons_of_mem first member)
      exact ⟨ends, List.forall_mem_cons.mpr ⟨⟨_, rest, start, passed, success⟩, each⟩⟩

/-- From the brace that opens the body of a site reading comes to the one that closes it. -/
theorem body_reached {site : Site} (member : site ∈ readSites source)
    {written : SourceDeclaration} (target : site.target = .declaration written) {text rest : Text}
    (inside : text <:+ source)
    (read : readDeclaration source.size text = some (written, rest)) :
    source.Reached (source.dropBytes written.body.stop) ∧ source.Reached rest := by
  obtain ⟨-, behind, behindSuffix, bodied⟩ := readDeclaration_exposes_body read
  obtain ⟨inner, rfl, ends, span⟩ := readBody_exposes_content bodied
  have innerInside : inner <:+ source :=
    (List.suffix_cons _ inner).trans (behindSuffix.trans inside)
  have closing : '\x7d' :: rest <:+ inner := ends ▸ Region.body.afterContent_suffix inner
  have start := legible.bodies written (mem_declarations member target)
  rw [span] at start ⊢
  simp only [Span.between, dropBytes_of_suffix innerInside,
    dropBytes_of_suffix (closing.trans innerInside)] at start ⊢
  have next (head : Char) (tail : Text) (holds : head :: tail <:+ inner ∧
      ('\x7d' :: rest <:+ head :: tail → source.Reached (head :: tail))) :
      behindToken (head :: tail) <:+ inner ∧
        ('\x7d' :: rest <:+ behindToken (head :: tail) →
          source.Reached (behindToken (head :: tail))) := by
    obtain ⟨within, holds⟩ := holds
    have shorter := (behindToken_suffix head tail).trans (List.suffix_cons head tail)
    refine ⟨shorter.trans within, fun later => ?_⟩
    have around := later.trans shorter
    have reached := holds around
    rw [← past_of_not_marked reached.suffix]
    · exact reached.past
    · -- no attribute that marks a site begins in the body of one
      intro marked
      obtain ⟨-, used, after, -, marks, -, place⟩ := marked.exists_readAttribute
      have outside := outside_body_of_mem_macroSpans member target marks
      have low := Text.size_le_of_suffix within
      have high := Text.size_le_of_suffix around
      rw [span, place] at outside
      simp only [Span.between] at outside
      omega
  have nests : Region.body.Nests := trivial
  have last := of_afterContent
    (fun text : Text => text <:+ inner ∧ ('\x7d' :: rest <:+ text → source.Reached text))
    next nests ⟨List.suffix_refl inner, fun _ => start⟩
  rw [ends] at last
  have closed := last.2 (List.suffix_refl _)
  have behindClosing := closed.behindToken (by decide)
  rw [behindToken_of_notMem (by decide)] at behindClosing
  exact ⟨closed, behindClosing⟩

theorem site_reached {text rest : Text} {site : Site} (reached : source.Reached text)
    (success : readSite source.size text = some (site, rest)) (member : site ∈ readSites source)
    {written : SourceDeclaration} (target : site.target = .declaration written) :
    site.ReachedIn source ∧ source.Reached rest := by
  obtain ⟨first, others, behind, last, listed, firstRead, later, -, targetRead, -⟩ :=
    readSite_exposes_parts success
  have run : ReadsInTurn (readAttribute source.size) text site.attributes last :=
    listed ▸ .of_readAttribute firstRead later
  obtain ⟨ends, attributes⟩ := legible.attributes_reached run reached
    fun written inside named => mem_macroSpans_of_mem member inside named
  have read : readDeclaration source.size (StyleMacros.skipTrivia last) = some (written, rest) := by
    rw [target] at targetRead
    unfold readTarget at targetRead
    split at targetRead
    · rename_i found
      cases targetRead
      exact found
    · split at targetRead <;> cases targetRead
  obtain ⟨body, passed⟩ := legible.body_reached member target ends.skipTrivia.suffix read
  refine ⟨⟨attributes, fun other otherTarget => ?_⟩, passed⟩
  cases target.symm.trans otherTarget
  exact body

end Text.Legible

theorem exists_readSite_of_macroName {total : Nat} {text behind : Text} {written : Attribute}
    (read : readAttribute total text = some (written, behind)) (named : written.macroName? ≠ none) :
    ∃ site rest, readSite total text = some (site, rest) := by
  have some : written.macroName?.isSome = true := Option.isSome_iff_ne_none.mpr named
  unfold readSite
  rw [read]
  simp only [List.any_cons, some, Bool.true_or, if_true]
  exact ⟨_, _, rfl⟩

theorem macroName?_eq_none_of_readSite {total : Nat} {text behind : Text} {written : Attribute}
    (none : readSite total text = none) (read : readAttribute total text = some (written, behind)) :
    written.macroName? = .none := by
  by_contra named
  obtain ⟨site, rest, found⟩ := exists_readSite_of_macroName read named
  rw [none] at found
  cases found

theorem Text.sitesFrom_behindToken_of_readSite {total : Nat} {head : Char} {rest : Text}
    (none : readSite total (head :: rest) = none) :
    sitesFrom total (head :: rest) = sitesFrom total (behindToken (head :: rest)) := by
  by_cases mark : head = '@'
  · subst mark
    rw [sitesFrom_of_readSite_eq_none none, behindToken_of_notMem (by decide)]
  · exact sitesFrom_behindToken mark rest

def Site.Covers (site : Site) (written : Attribute) : Prop :=
  site.span.start ≤ written.span.start ∧ written.span.start < site.span.stop

theorem Site.covers_of_read {text behind later after : Text} {site : Site} {written : Attribute}
    (inside : text <:+ source) (success : readSite source.size text = some (site, behind))
    (within : later <:+ text) (beyond : ¬ later <:+ behind)
    (read : readAttribute source.size later = some (written, after)) : site.Covers written := by
  obtain ⟨-, suffix, span⟩ := readSite_placed inside success
  obtain ⟨-, place⟩ := readAttribute_placed (within.trans inside) read
  have low := Text.size_le_of_suffix within
  have sizes := Text.size_le_of_suffix (within.trans inside)
  have longer : behind.size < later.size := by
    obtain ⟨front, rfl⟩ := (List.suffix_or_suffix_of_suffix within suffix).resolve_left beyond
    cases front with
    | nil => exact absurd (List.suffix_refl behind) beyond
    | cons head tail =>
        have positive := head.utf8Size_pos
        simp only [List.cons_append, Text.size_cons, Text.size_append]
        omega
  rw [Site.Covers, span, place]
  simp only [Span.between]
  omega

/-- In a legible source whose sites have declarations, sites are read where reading comes to, and
every attribute that names a macro begins in one of them, unless a comment or a literal hides it. -/
theorem Text.Legible.sitesFrom_reached (legible : source.Legible)
    (declared : ∀ site ∈ readSites source, ∃ written, site.target = .declaration written)
    {text : Text} (reached : source.Reached text)
    (known : ∀ site ∈ sitesFrom source.size text, site ∈ readSites source) :
    (∀ site ∈ sitesFrom source.size text, site.ReachedIn source) ∧
      ∀ later written after, source.Reached later → later <:+ text →
        readAttribute source.size later = some (written, after) → written.macroName? ≠ none →
          ∃ site ∈ sitesFrom source.size text, site.Covers written := by
  induction length : text.length using Nat.strongRecOn generalizing text with
  | ind length inductionHypothesis =>
      subst length
      cases text with
      | nil =>
          refine ⟨by simp [sitesFrom, readSitesWithin, StyleMacros.skipTrivia, skipTriviaWithin], ?_⟩
          intro later written after _ within read
          rw [List.suffix_nil.mp within] at read
          cases read
      | cons head rest =>
          have less (behind : Text) (suffix : behind <:+ rest) :
              behind.length < (head :: rest).length := Nat.lt_succ_of_le suffix.length_le
          cases success : readSite source.size (head :: rest) with
          | some found =>
              obtain ⟨site, behind⟩ := found
              have start : StyleMacros.skipTrivia (head :: rest) = head :: rest := by
                obtain ⟨first, _, firstRead, -⟩ := readSite_suffix_attribute success
                exact skipTrivia_of_readAttribute firstRead
              rw [sitesFrom_of_readSite start success] at known ⊢
              have member := known site List.mem_cons_self
              obtain ⟨written, target⟩ := declared site member
              obtain ⟨siteReached, passed⟩ := legible.site_reached reached success member target
              obtain ⟨others, covered⟩ := inductionHypothesis _ (readSite_shorter success) passed
                (fun other inside => known other (List.mem_cons_of_mem site inside)) rfl
              refine ⟨List.forall_mem_cons.mpr ⟨siteReached, others⟩, ?_⟩
              intro later used after laterReached within read named
              by_cases deeper : later <:+ behind
              · obtain ⟨other, inside, covers⟩ := covered later used after laterReached deeper read named
                exact ⟨other, List.mem_cons_of_mem site inside, covers⟩
              · exact ⟨site, List.mem_cons_self,
                  Site.covers_of_read reached.suffix success within deeper read⟩
          | none =>
              have unmarked : ¬ source.Marked (head :: rest) := by
                intro marked
                obtain ⟨-, written, after, read, -, named, -⟩ := marked.exists_readAttribute
                exact named (macroName?_eq_none_of_readSite success read)
              have passed := reached.past
              rw [past_of_not_marked reached.suffix unmarked] at passed
              rw [sitesFrom_behindToken_of_readSite success] at known ⊢
              obtain ⟨each, covered⟩ :=
                inductionHypothesis _ (less _ (behindToken_suffix head rest)) passed known rfl
              refine ⟨each, ?_⟩
              intro later written after laterReached within read named
              rcases Nat.lt_or_ge later.length (head :: rest).length with behind | whole
              · have deeper := reached.suffix_past laterReached behind
                rw [past_of_not_marked reached.suffix unmarked] at deeper
                exact covered later written after laterReached deeper read named
              · rw [within.eq_of_length_le whole] at read
                exact absurd (macroName?_eq_none_of_readSite success read) named

end StyleMacros
