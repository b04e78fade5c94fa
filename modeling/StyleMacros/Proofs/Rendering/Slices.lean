import StyleMacros.Proofs.Rendering.Edits
import StyleMacros.Proofs.Rendering.Ranges

/-!
# Rendering cuts only where it may

A slice is safe if its range runs forward, ends inside the text and cuts no character. Here
rendering is written once more with slices that are refused otherwise. It is never refused, and
it answers what rendering answers. Each definition has the name of the one that it repeats, with a
question mark.
-/

set_option autoImplicit false

namespace StyleMacros

/-! ## Safe slices -/

namespace Text

/-- The text in front of an offset and the text behind it. There is neither for an offset
beyond the end or inside a character. -/
def cut? (offset : Nat) : Text → Option (Text × Text)
  | [] => if offset = 0 then some ([], []) else none
  | head :: rest =>
    if offset = 0 then some ([], head :: rest)
    else if offset < head.utf8Size then none
    else (cut? (offset - head.utf8Size) rest).map fun parts => (head :: parts.1, parts.2)

/-- The bytes from `start` up to `stop`, unless the range is reversed, ends outside the text or
cuts a character. -/
def slice? (source : Text) (start stop : Nat) : Option Text :=
  if stop < start then none
  else do
    let (_, behind) ← cut? start source
    let (piece, _) ← cut? (stop - start) behind
    return piece

def sliceFrom? (source : Text) (start : Nat) : Option Text :=
  source.slice? start source.size

theorem cut?_append (front rest : Text) :
    cut? (size front) (front ++ rest) = some (front, rest) := by
  induction front with
  | nil => cases rest <;> rfl
  | cons head tail inductionHypothesis =>
      have nonzero : head.utf8Size ≠ 0 := Nat.ne_of_gt head.utf8Size_pos
      simp [cut?, nonzero, inductionHypothesis]

theorem append_of_cut? {offset : Nat} {source front rest : Text}
    (success : cut? offset source = some (front, rest)) :
    source = front ++ rest ∧ size front = offset := by
  induction source generalizing offset front with
  | nil =>
      simp only [cut?] at success
      split at success
      · rename_i zero
        cases success
        exact ⟨rfl, zero.symm⟩
      · cases success
  | cons head tail inductionHypothesis =>
      simp only [cut?] at success
      split at success
      · rename_i zero
        cases success
        exact ⟨rfl, zero.symm⟩
      · split at success
        · cases success
        · obtain ⟨⟨front', rest'⟩, found, exact⟩ := Option.map_eq_some_iff.mp success
          cases exact
          obtain ⟨split, sizes⟩ := inductionHypothesis found
          refine ⟨by rw [split]; rfl, ?_⟩
          simp only [size_cons]
          omega

theorem slice?_eq_some_iff {source piece : Text} {start stop : Nat} :
    source.slice? start stop = some piece ↔
      start ≤ stop ∧ source.IsBoundary start ∧ source.IsBoundary stop ∧
        piece = source.slice start stop := by
  constructor
  · intro success
    unfold slice? at success
    split at success
    · cases success
    · obtain ⟨⟨front, behind⟩, first, success⟩ := Option.bind_eq_some_iff.mp success
      obtain ⟨⟨inner, rest⟩, second, success⟩ := Option.bind_eq_some_iff.mp success
      cases Option.some.inj success
      obtain ⟨rfl, startSize⟩ := append_of_cut? first
      obtain ⟨rfl, innerSize⟩ := append_of_cut? second
      have stopSize : stop = size front + size piece := by omega
      refine ⟨by omega, ⟨front, piece ++ rest, rfl, startSize⟩,
        ⟨front ++ piece, rest, (List.append_assoc ..).symm, ?_⟩, ?_⟩
      · rw [size_append, stopSize]
      · exact (slice_append front piece rest start stop startSize.symm stopSize).symm
  · rintro ⟨ordered, first, last, rfl⟩
    obtain ⟨front, inner, rest, rfl, rfl, rfl⟩ := first.exists_pieces last ordered
    rw [slice_append front inner rest _ _ rfl rfl, slice?, if_neg (by omega),
      cut?_append, Nat.add_sub_cancel_left]
    show (cut? (size inner) (inner ++ rest)).bind _ = _
    rw [cut?_append]
    rfl

theorem slice?_of_boundaries {source : Text} {start stop : Nat} (first : source.IsBoundary start)
    (last : source.IsBoundary stop) (ordered : start ≤ stop) :
    source.slice? start stop = some (source.slice start stop) :=
  slice?_eq_some_iff.mpr ⟨ordered, first, last, rfl⟩

theorem sliceFrom?_of_boundary {source : Text} {start : Nat} (first : source.IsBoundary start) :
    source.sliceFrom? start = some (source.dropBytes start) := by
  rw [sliceFrom?, slice?_of_boundaries first (.atEnd source) first.le_size]
  obtain ⟨front, rest, rfl, rfl⟩ := first
  rw [dropBytes_size_append]
  have pieces := slice_append front rest [] (size front) (size (front ++ rest)) rfl
    (size_append front rest)
  rw [List.append_nil] at pieces
  rw [pieces]

/-! ## Lines -/

def lineStart? (source : Text) (offset : Nat) : Option Nat := do
  let head ← source.slice? 0 offset
  return offset - size (head.reverse.takeWhile (· ≠ '\n'))

def lineIndent? (source : Text) (offset : Nat) : Option Text := do
  let start ← source.lineStart? offset
  let line ← source.sliceFrom? start
  return line.takeWhile isInlineBlank

def nextFeed? (source : Text) (offset : Nat) : Option (Option Nat) := do
  let rest ← source.sliceFrom? offset
  let line := rest.takeWhile (· ≠ '\n')
  return if size line < size rest then some (offset + size line) else none

theorem IsBoundary.lineStart? {source : Text} {offset : Nat} (boundary : IsBoundary source offset) :
    source.lineStart? offset = some (source.lineStart offset) := by
  rw [Text.lineStart?, slice?_of_boundaries (.zero source) boundary (Nat.zero_le offset)]
  obtain ⟨front, rest, rfl, rfl⟩ := boundary
  have piece := slice_append [] front rest 0 (size front) rfl (Nat.zero_add _).symm
  rw [List.nil_append] at piece
  rw [piece, lineStart, takeBytes_size_append]
  rfl

theorem IsBoundary.lineIndent? {source : Text} {offset : Nat}
    (boundary : IsBoundary source offset) :
    source.lineIndent? offset = some (source.lineIndent offset) := by
  rw [Text.lineIndent?, boundary.lineStart?]
  show (source.sliceFrom? _).bind _ = _
  rw [sliceFrom?_of_boundary boundary.lineStart_boundary]
  rfl

theorem IsBoundary.nextFeed? {source : Text} {offset : Nat} (boundary : IsBoundary source offset) :
    source.nextFeed? offset = some
      (if offset + size (source.lineAfter offset) < source.size then
        some (offset + size (source.lineAfter offset)) else none) := by
  have inside := boundary.le_size
  have sizes := boundary.size_dropBytes
  rw [Text.nextFeed?, sliceFrom?_of_boundary boundary]
  show some (if size (source.lineAfter offset) < _ then _ else _) = _
  rw [sizes]
  congr 1
  split <;> rename_i shorter
  · rw [if_pos (by omega)]
    rfl
  · rw [if_neg (by omega)]

end Text

/-! ## Edits with safe slices -/

def removalEdit? (source : Text) (span : Span) : Option Edit := do
  let lineStart ← source.lineStart? span.start
  let feed ← source.nextFeed? span.stop
  let lineStop := (feed.map (· + 1)).getD source.size
  let before ← source.slice? lineStart span.start
  let after ← source.slice? span.stop lineStop
  if before.isBlank && after.isBlank then return ⟨lineStart, lineStop, []⟩
  else return ⟨span.start, span.stop + Text.size (after.takeWhile isInlineBlank), []⟩

def membersEdit? (source : Text) (body : Span) (outer unit : Text) (members : List Fragment) :
    Option Edit := do
  let text ← source.slice? body.start body.stop
  let block := stackedFragments (outer ++ unit) members
  let kept := text.trimEnd
  if kept = [] then return ⟨body.start, body.stop, '\n' :: block ++ '\n' :: outer⟩
  else return ⟨body.start + kept.size, body.stop, '\n' :: '\n' :: block ++ '\n' :: outer⟩

def peerAnchor? (source : Text) (stop : Nat) : Option Nat := do
  let feed ← source.nextFeed? stop
  let line ← source.slice? stop (feed.getD source.size)
  let rest := line.trimEnd
  return if isTrailingComment rest.trimStart then stop + rest.size else stop

def peersEdit? (source : Text) (stop : Nat) (outer : Text) (peers : List Fragment) :
    Option Edit := do
  let anchor ← peerAnchor? source stop
  return ⟨anchor, anchor, '\n' :: '\n' :: stackedFragments outer peers⟩

namespace SiteExpansion

def memberEdits? (site : SiteExpansion) (source outer unit : Text) : Option (List Edit) :=
  match site.body, site.members with
  | some body, first :: rest =>
    (membersEdit? source body outer unit (first :: rest)).map ([·])
  | _, _ => some []

def peerEdits? (site : SiteExpansion) (source outer : Text) (stop : Nat) : Option (List Edit) :=
  match site.peers with
  | [] => some []
  | first :: rest => (peersEdit? source stop outer (first :: rest)).map ([·])

def edits? (site : SiteExpansion) (source unit : Text) : Option (List Edit) := do
  let removals ← site.macroSpans.mapM (removalEdit? source)
  match site.declaration with
  | none => return removals
  | some declaration => do
    let outer ← source.lineIndent? site.span.start
    let members ← site.memberEdits? source outer unit
    let peers ← site.peerEdits? source outer declaration.span.stop
    return removals ++ (members ++ peers)

end SiteExpansion

def Edit.applyFrom? (source : Text) (cursor : Nat) : List Edit → Option Text
  | [] => source.sliceFrom? cursor
  | edit :: rest =>
    if edit.start < cursor then applyFrom? source cursor rest
    else do
      let kept ← source.slice? cursor edit.start
      let later ← applyFrom? source edit.stop rest
      return kept ++ edit.text ++ later

/-- Rendering with safe slices: nothing at all if one of them is refused. -/
def FileExpansion.render? (expansion : FileExpansion) (source : Text) (options : RenderOptions) :
    Option (Option Text) :=
  if expansion.hasErrors then some none
  else do
    let edits ← expansion.sites.mapM fun site => site.edits? source options.unit
    let body ← Edit.applyFrom? source 0 (Edit.sort edits.flatten)
    return some (options.lead ++ body)

/-! ## No slice is refused -/

namespace Text.IsBoundary

variable {source : Text} {offset : Nat}

theorem nextFeed?_getD (boundary : IsBoundary source offset) :
    ∃ feed, source.nextFeed? offset = some feed ∧
      feed.getD source.size = offset + size (source.lineAfter offset) ∧
      (feed.map (· + 1)).getD source.size = source.nextLine offset := by
  have inside := boundary.lineEnd_boundary.le_size
  refine ⟨_, boundary.nextFeed?, ?_, ?_⟩
  · split
    · rfl
    · simp only [Option.getD_none]
      omega
  · simp only [nextLine]
    split
    · rfl
    · simp only [Option.map_none, Option.getD_none]
      omega

theorem slice_lineEnd (boundary : IsBoundary source offset) :
    source.slice offset (offset + size (source.lineAfter offset)) = source.lineAfter offset := by
  obtain ⟨front, later, exact, start, _⟩ := boundary.exists_line_tail
  have pieces := slice_append front (source.lineAfter offset) later offset
    (offset + size (source.lineAfter offset)) start (by rw [start])
  rwa [← exact] at pieces

/-- Up to the next line there is the line feed besides, or nothing. -/
theorem slice_nextLine (boundary : IsBoundary source offset) :
    ∃ feed, source.slice offset (source.nextLine offset) = source.lineAfter offset ++ feed ∧
      (feed = [] ∨ feed = ['\n']) := by
  obtain ⟨front, later, exact, start, _, ends⟩ := boundary.exists_line_tail
  rcases boundary.nextLine_cases with ⟨stop, _⟩ | ⟨stop, found⟩
  · refine ⟨[], ?_, .inl rfl⟩
    rw [stop, boundary.slice_lineEnd, List.append_nil]
  · refine ⟨['\n'], ?_, .inr rfl⟩
    rcases ends with rfl | ⟨rest, rfl⟩
    · have outside := found.lt_size
      have whole := congrArg size exact
      rw [size_append, size_append, size_nil] at whole
      omega
    · have split : source = front ++ ((source.lineAfter offset ++ ['\n']) ++ rest) := by
        rw [List.append_assoc]
        exact exact
      have pieces := slice_append front (source.lineAfter offset ++ ['\n']) rest offset
        (source.nextLine offset) start (by
          rw [stop, start, size_append, Nat.add_assoc]
          rfl)
      rwa [← split] at pieces

end Text.IsBoundary

theorem removalEdit?_eq {source : Text} {span : Span} (fits : span.Fits source) :
    removalEdit? source span = some (removalEdit source span) := by
  have start := fits.start
  have stop := fits.stop
  obtain ⟨feed, found, _, next⟩ := stop.nextFeed?_getD
  obtain ⟨tail, line, ends⟩ := stop.slice_nextLine
  -- the line behind the attribute is read with its feed here, which changes neither of the tests
  have blankExact : Text.isBlank (source.lineAfter span.stop ++ tail) =
      Text.isBlank (source.lineAfter span.stop) := by
    rcases ends with rfl | rfl
    · rw [List.append_nil]
    · simp [Text.isBlank, show isWhitespace '\n' = true from rfl]
  have leadExact : (source.lineAfter span.stop ++ tail).takeWhile isInlineBlank =
      (source.lineAfter span.stop).takeWhile isInlineBlank := by
    rcases ends with rfl | rfl
    · rw [List.append_nil]
    · rw [List.takeWhile_append]
      split
      · rename_i all
        simp [show isInlineBlank '\n' = false from rfl, List.Sublist.eq_of_length
          (List.takeWhile_sublist _) all]
      · rfl
  rw [removalEdit?, start.lineStart?]
  simp only [Option.bind_eq_bind, Option.bind_some]
  rw [found]
  simp only [Option.bind_some]
  rw [next, Text.slice?_of_boundaries start.lineStart_boundary start start.lineStart_le]
  simp only [Option.bind_some]
  rw [Text.slice?_of_boundaries stop stop.nextLine_boundary stop.le_nextLine, line]
  simp only [Option.bind_some]
  have head : source.slice (source.lineStart span.start) span.start =
      source.lineBefore span.start := rfl
  rw [blankExact, leadExact, head]
  simp only [removalEdit]
  split <;> rfl

theorem membersEdit?_eq {source : Text} {body : Span} (fits : body.Fits source)
    (outer unit : Text) (members : List Fragment) :
    membersEdit? source body outer unit members =
      some (membersEdit source body outer unit members) := by
  have text : source.slice body.start body.stop = body.text source := rfl
  rw [membersEdit?, Text.slice?_of_boundaries fits.start fits.stop fits.ordered, text]
  simp only [Option.bind_eq_bind, Option.bind_some, membersEdit]
  split <;> rfl

theorem peersEdit?_eq {source : Text} {stop : Nat} (boundary : source.IsBoundary stop)
    (outer : Text) (peers : List Fragment) :
    peersEdit? source stop outer peers = some (peersEdit source stop outer peers) := by
  obtain ⟨feed, found, lineEnd, _⟩ := boundary.nextFeed?_getD
  rw [peersEdit?, peerAnchor?, found]
  simp only [Option.bind_eq_bind, Option.bind_some]
  rw [lineEnd, Text.slice?_of_boundaries boundary boundary.lineEnd_boundary
    (Nat.le_add_right _ _), boundary.slice_lineEnd]
  rfl

theorem mapM_eq_some_map {Item Result : Type} {attempt : Item → Option Result}
    {answer : Item → Result} {items : List Item}
    (success : ∀ item ∈ items, attempt item = some (answer item)) :
    items.mapM attempt = some (items.map answer) := by
  induction items with
  | nil => rfl
  | cons head rest inductionHypothesis =>
      rw [List.mapM_cons, success head List.mem_cons_self,
        inductionHypothesis fun item member => success item (List.mem_cons_of_mem head member)]
      rfl

namespace SiteExpansion

variable {site : SiteExpansion} {source : Text}

theorem memberEdits?_eq (placed : site.Placed source) (outer unit : Text) :
    site.memberEdits? source outer unit =
      some (match site.body, site.members with
        | some body, first :: rest => [membersEdit source body outer unit (first :: rest)]
        | _, _ => []) := by
  unfold memberEdits?
  cases bodied : site.body with
  | none => rfl
  | some body =>
      cases site.members with
      | nil => rfl
      | cons first rest =>
          simp only
          rw [membersEdit?_eq (placed.body body bodied)]
          rfl

theorem peerEdits?_eq (site : SiteExpansion) {stop : Nat} (boundary : source.IsBoundary stop)
    (outer : Text) :
    site.peerEdits? source outer stop =
      some (match site.peers with
        | [] => []
        | first :: rest => [peersEdit source stop outer (first :: rest)]) := by
  unfold peerEdits?
  cases site.peers with
  | nil => rfl
  | cons first rest =>
      simp only
      rw [peersEdit?_eq boundary]
      rfl

theorem edits?_eq (placed : site.Placed source) (unit : Text) :
    site.edits? source unit = some (site.edits source unit) := by
  have removals : site.macroSpans.mapM (removalEdit? source) =
      some (site.macroSpans.map (removalEdit source)) := by
    apply mapM_eq_some_map
    intro span member
    obtain ⟨⟨written, writtenPlaced, exact⟩, _⟩ := placed.macros span member
    exact removalEdit?_eq (exact ▸ writtenPlaced.fits)
  rw [edits?, removals]
  simp only [Option.bind_eq_bind, Option.bind_some]
  unfold edits
  cases declared : site.declaration with
  | none => simp
  | some declaration =>
      simp only
      rw [placed.fits.start.lineIndent?]
      simp only [Option.bind_some]
      rw [memberEdits?_eq placed, peerEdits?_eq site (placed.stop_boundary declared)]
      rfl

end SiteExpansion

theorem Edit.applyFrom?_eq {source : Text} {edits : List Edit}
    (fits : ∀ edit ∈ edits, source.IsBoundary edit.start ∧ source.IsBoundary edit.stop)
    {cursor : Nat} (boundary : source.IsBoundary cursor) :
    Edit.applyFrom? source cursor edits = some (Edit.applyFrom source cursor edits) := by
  induction edits generalizing cursor with
  | nil => exact Text.sliceFrom?_of_boundary boundary
  | cons edit rest inductionHypothesis =>
      obtain ⟨start, stop⟩ := fits edit List.mem_cons_self
      have restFits := fun other member => fits other (List.mem_cons_of_mem edit member)
      rw [applyFrom?, applyFrom]
      split
      · exact inductionHypothesis restFits boundary
      · rename_i behind
        rw [Text.slice?_of_boundaries boundary start (Nat.le_of_not_lt behind),
          inductionHypothesis restFits stop]
        rfl

theorem FileExpansion.Placed.render?_eq {expansion : FileExpansion} {source : Text}
    (placed : expansion.Placed source) (options : RenderOptions) :
    expansion.render? source options = some (expansion.render source options) := by
  rw [FileExpansion.render?, FileExpansion.render]
  split
  · rfl
  · have edits : expansion.sites.mapM (fun site => site.edits? source options.unit) =
        some (expansion.sites.map fun site => site.edits source options.unit) :=
      mapM_eq_some_map fun site member =>
        SiteExpansion.edits?_eq (placed.sites site member) options.unit
    rw [edits]
    simp only [Option.bind_eq_bind, Option.bind_some]
    rw [Edit.applyFrom?_eq _ (.zero source)]
    · rfl
    · intro edit member
      obtain ⟨edits, listed, inside⟩ := List.mem_flatten.mp (Edit.mem_sort.mp member)
      obtain ⟨site, siteMember, rfl⟩ := List.mem_map.mp listed
      obtain ⟨start, stop, _⟩ := (placed.sites site siteMember).edit_fits inside
      exact ⟨start, stop⟩

/-- The sites of a text stand one behind the other, their spans and those of their parts lie as
the parts are written, and rendering any expansion of the text refuses no slice: every range
that it cuts runs forward, ends inside the text and cuts no character. -/
theorem sites_placed_and_rendering_refuses_no_slice (source : SourceText) :
    (∀ site ∈ readSites source.content, site.Placed source.content) ∧
    ((readSites source.content).Pairwise
      fun earlier later => earlier.span.stop ≤ later.span.start) ∧
    ∀ (settings : ExpansionSettings) (steps : List ExpansionStep) (options : RenderOptions),
      ((FileExpansion.ofSource source settings).run steps).render? source.content options =
        some (((FileExpansion.ofSource source settings).run steps).render source.content
          options) := by
  obtain ⟨placed, ordered⟩ := readSites_placed source.content
  refine ⟨placed, ordered, ?_⟩
  intro settings steps options
  have expansionPlaced := FileExpansion.ofSource_placed source settings
  exact (FileExpansion.run_placed expansionPlaced steps).render?_eq options

end StyleMacros
