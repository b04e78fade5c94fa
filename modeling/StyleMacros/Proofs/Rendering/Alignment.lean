import StyleMacros.Proofs.Rendering.EditPlaces

/-!
# Reading a rendered source

What is rendered from a legible source is read as the source is: token by token and attribute by
attribute, with the tokens of what is put in between, and without the attributes that are taken
away. A place of the source and the edits that are still ahead there say what is left to read.
-/

set_option autoImplicit false

namespace StyleMacros

theorem Text.takeBytes_size_add (front rest : Text) (more : Nat) :
    Text.takeBytes (front.size + more) (front ++ rest) = front ++ Text.takeBytes more rest := by
  induction front with
  | nil => simp
  | cons head tail inductionHypothesis =>
      have positive := head.utf8Size_pos
      rw [Text.size_cons, List.cons_append, Text.takeBytes, if_neg (by omega), Nat.add_assoc,
        Nat.add_sub_cancel_left, inductionHypothesis]
      rfl

theorem Text.takeBytes_zero (text : Text) : Text.takeBytes 0 text = [] := by
  cases text <;> rfl

namespace Edit

/-- What is left of the result at the end part `text` of the source, with the edits of `later`
ahead. -/
def resultFrom (source text : Text) (later : List Edit) : Text :=
  applyFrom source (source.size - text.size) later

/-- Reading has come to `text`, and only the edits of `later` are still ahead. -/
structure Stand (source : Text) (edits : List Edit) (text : Text) (later : List Edit) : Prop where
  reached : source.Reached text
  remain : later <:+ edits
  behind : ∀ edit ∈ edits, edit.stop ≤ source.size - text.size ∨ edit ∈ later
  ahead : ∀ edit ∈ later,
    source.size - text.size ≤ edit.start ∨ edit.stop ≤ source.size - text.size

/-- No edit is left that begins at the place or in front of it. -/
def ClearAt (source text : Text) (later : List Edit) : Prop :=
  ∀ edit ∈ later, source.size - text.size < edit.start

variable {source text : Text} {edits later : List Edit} {edit : Edit}

/-! ## What is left of the result -/

theorem resultFrom_nil (inside : text <:+ source) : resultFrom source text [] = text :=
  dropBytes_of_suffix inside

theorem resultFrom_append {front behind : Text} (inside : front ++ behind <:+ source)
    (ahead : ∀ edit ∈ later, source.size - behind.size ≤ edit.start) :
    resultFrom source (front ++ behind) later = front ++ resultFrom source behind later := by
  have sizes := Text.size_le_of_suffix inside
  rw [Text.size_append] at sizes
  cases later with
  | nil =>
      rw [resultFrom_nil inside, resultFrom_nil ((List.suffix_append front behind).trans inside)]
  | cons edit others =>
      have low := ahead edit List.mem_cons_self
      have place : edit.start - (source.size - Text.size (front ++ behind)) =
          front.size + (edit.start - (source.size - behind.size)) := by
        rw [Text.size_append]
        omega
      rw [resultFrom, resultFrom, applyFrom, applyFrom, if_neg (Nat.not_lt.mpr low), if_neg (by
        rw [Text.size_append]
        omega), Text.slice, Text.slice, dropBytes_of_suffix inside,
        dropBytes_of_suffix ((List.suffix_append front behind).trans inside), place,
        Text.takeBytes_size_add]
      simp only [List.append_assoc]

/-! ## Steps -/

theorem Stand.start (source : Text) (edits : List Edit) : Stand source edits source edits where
  reached := .start source
  remain := List.suffix_refl edits
  behind := fun _ member => .inr member
  ahead := fun _ _ => .inl (by rw [Nat.sub_self]; exact Nat.zero_le _)

theorem Stand.skip (stand : Stand source edits text (edit :: later))
    (inside : edit.start < source.size - text.size) :
    Stand source edits text later ∧
      resultFrom source text (edit :: later) = resultFrom source text later := by
  refine ⟨⟨stand.reached, (List.suffix_cons edit later).trans stand.remain, ?_, ?_⟩, ?_⟩
  · intro other member
    rcases stand.behind other member with passed | left
    · exact .inl passed
    · rcases List.mem_cons.mp left with rfl | left
      · exact .inl ((stand.ahead other List.mem_cons_self).resolve_left (Nat.not_le.mpr inside))
      · exact .inr left
  · exact fun other member => stand.ahead other (List.mem_cons_of_mem edit member)
  · rw [resultFrom, applyFrom, if_pos inside]
    rfl

section Respects

variable (respects : Respects source edits)

include respects

theorem Stand.apply (stand : Stand source edits text (edit :: later))
    (here : edit.start = source.size - text.size) :
    Stand source edits (source.dropBytes edit.stop) later ∧
      resultFrom source text (edit :: later) =
        edit.text ++ resultFrom source (source.dropBytes edit.stop) later := by
  have member : edit ∈ edits := stand.remain.subset List.mem_cons_self
  obtain ⟨startFits, stopFits, forward⟩ := respects.fits edit member
  have place : source.size - Text.size (source.dropBytes edit.stop) = edit.stop := by
    rw [stopFits.size_dropBytes]
    have inside := stopFits.le_size
    omega
  have nested := (List.pairwise_cons.mp (respects.nested.sublist stand.remain.sublist)).1
  refine ⟨⟨(respects.reached edit member).2, (List.suffix_cons edit later).trans stand.remain,
    ?_, ?_⟩, ?_⟩
  · intro other otherMember
    rw [place]
    rcases stand.behind other otherMember with passed | left
    · exact .inl (passed.trans (here ▸ forward))
    · rcases List.mem_cons.mp left with rfl | left
      · exact .inl (Nat.le_refl _)
      · exact .inr left
  · intro other otherMember
    rw [place]
    exact (nested other otherMember).2
  · rw [resultFrom, resultFrom, applyFrom, ← here, if_neg (Nat.lt_irrefl _), place, Text.slice,
      Nat.sub_self, Text.takeBytes_zero]
    rfl

/-- An edit at the place leads no way back, and not beyond what it does not cover. -/
theorem Stand.apply_suffix (stand : Stand source edits text (edit :: later))
    (here : edit.start = source.size - text.size) {place : Text} (inside : place <:+ text)
    (beyond : edit.stop ≤ source.size - place.size) :
    source.dropBytes edit.stop <:+ text ∧ place <:+ source.dropBytes edit.stop := by
  obtain ⟨-, stopFits, forward⟩ := respects.fits edit (stand.remain.subset List.mem_cons_self)
  have sizes := stopFits.size_dropBytes
  have bound := stopFits.le_size
  have textSizes := Text.size_le_of_suffix stand.reached.suffix
  have placeSizes := Text.size_le_of_suffix inside
  have stopInside := dropBytes_suffix source edit.stop
  constructor
  · exact Text.suffix_of_size_le stand.reached.suffix stopInside (by omega)
  · exact Text.suffix_of_size_le stopInside (inside.trans stand.reached.suffix) (by omega)

theorem Stand.unmarked (stand : Stand source edits text later)
    (clear : ClearAt source text later) : ¬ source.Marked text := by
  intro marked
  obtain ⟨edit, member, low, high⟩ := respects.takes text marked
  rcases stand.behind edit member with passed | left
  · omega
  · have before := clear edit left
    omega

theorem Stand.ahead_of_clear {head : Char} {rest : Text}
    (stand : Stand source edits (head :: rest) later) (clear : ClearAt source (head :: rest) later) :
    ∀ edit ∈ later,
      source.size - Text.size (Text.behindToken (head :: rest)) ≤ edit.start := by
  intro edit left
  have member : edit ∈ edits := stand.remain.subset left
  obtain ⟨startFits, -, -⟩ := respects.fits edit member
  have place : source.size - Text.size (source.dropBytes edit.start) = edit.start := by
    rw [startFits.size_dropBytes]
    have inside := startFits.le_size
    omega
  have reached := (respects.reached edit member).1
  have before := clear edit left
  have sizes := Text.size_le_of_suffix stand.reached.suffix
  have further := stand.reached.suffix_past reached
    (Text.length_lt_of_size_lt stand.reached.suffix reached.suffix (by omega))
  rw [Text.past_of_not_marked stand.reached.suffix (stand.unmarked respects clear)] at further
  have beyond := Text.size_le_of_suffix further
  omega

/-- Reading goes on over one token. -/
theorem Stand.pass {head : Char} {rest : Text}
    (stand : Stand source edits (head :: rest) later) (clear : ClearAt source (head :: rest) later) :
    Stand source edits (Text.behindToken (head :: rest)) later := by
  have further := stand.reached.past
  rw [Text.past_of_not_marked stand.reached.suffix (stand.unmarked respects clear)] at further
  refine ⟨further, stand.remain, ?_, ?_⟩
  · intro edit member
    have suffix := (Text.behindToken_suffix head rest).trans (List.suffix_cons head rest)
    exact (stand.behind edit member).imp
      (fun passed => passed.trans (start_le_start_of_suffix suffix)) id
  · exact fun edit member => .inl (stand.ahead_of_clear respects clear edit member)

/-! ## What comes to stand behind a stretch -/

theorem clearAt_cons (remain : edit :: later <:+ edits)
    (before : source.size - text.size < edit.start) : ClearAt source text (edit :: later) := by
  have ordered := (List.pairwise_cons.mp (respects.nested.sublist remain.sublist)).1
  exact List.forall_mem_cons.mpr
    ⟨before, fun other left => Nat.lt_of_lt_of_le before (ordered other left).1⟩

theorem clear_or_here {behind : Text} (remain : later <:+ edits)
    (ahead : ∀ edit ∈ later, source.size - behind.size ≤ edit.start) :
    ClearAt source behind later ∨
      ∃ edit others, later = edit :: others ∧ edit.start = source.size - behind.size := by
  cases later with
  | nil => exact .inl (by simp [ClearAt])
  | cons edit others =>
      rcases Nat.lt_or_ge (source.size - behind.size) edit.start with before | reached
      · exact .inl (clearAt_cons respects remain before)
      · exact .inr ⟨edit, others, rfl, Nat.le_antisymm reached (ahead edit List.mem_cons_self)⟩

theorem resultFrom_of_clear {head : Char} {rest : Text} (inside : head :: rest <:+ source)
    (remain : later <:+ edits) (clear : ClearAt source (head :: rest) later) :
    (∀ edit ∈ later, source.size - rest.size ≤ edit.start) ∧
      resultFrom source (head :: rest) later = head :: resultFrom source rest later := by
  have ahead : ∀ edit ∈ later, source.size - rest.size ≤ edit.start := by
    intro edit left
    have fits := (respects.fits edit (remain.subset left)).1
    have further := (charAt_of_suffix inside).stop_le_of_lt fits (clear edit left)
    have sizes := Text.size_le_of_suffix inside
    rw [Text.size_cons] at further sizes
    omega
  exact ⟨ahead, resultFrom_append (show [head] ++ rest <:+ source from inside) ahead⟩

theorem resultFrom_end (remain : later <:+ edits) (clear : ClearAt source [] later) :
    resultFrom source [] later = [] := by
  cases later with
  | nil => exact resultFrom_nil List.nil_suffix
  | cons edit others =>
      have bound := (respects.fits edit (remain.subset List.mem_cons_self)).1.le_size
      have before := clear edit List.mem_cons_self
      rw [Text.size_nil] at before
      omega

/-- Behind a character that is no line feed an edit takes an attribute away or brings a line feed. -/
theorem resultFrom_of_here {lead behind : Text} {last : Char}
    (split : source = lead ++ last :: behind) (noFeed : last ≠ '\n') (remain : edit :: later <:+ edits)
    (here : edit.start = source.size - behind.size) :
    source.Marked behind ∨ (resultFrom source behind (edit :: later)).head? = some '\n' := by
  have place : source.dropBytes edit.start = behind := by
    rw [here]
    exact dropBytes_of_suffix ⟨lead ++ [last], by simp [split]⟩
  rcases respects.begins edit (remain.subset List.mem_cons_self) with feed | ⟨-, marked | feed⟩
  · right
    rw [resultFrom, applyFrom, if_neg (by omega), List.append_assoc, ← here, Text.slice, Nat.sub_self,
      Text.takeBytes_zero, List.nil_append, List.head?_append, feed]
    rfl
  · exact .inl (place ▸ marked)
  · exact absurd (feed lead last (by rw [place]; exact split)) noFeed

theorem replaces_resultFrom {lead behind : Text} {last : Char}
    (split : source = lead ++ last :: behind) (noFeed : last ≠ '\n') (remain : later <:+ edits)
    (ahead : ∀ edit ∈ later, source.size - behind.size ≤ edit.start) :
    source.Replaces behind (resultFrom source behind later) := by
  have inside : behind <:+ source := ⟨lead ++ [last], by simp [split]⟩
  rcases clear_or_here respects remain ahead with clear | ⟨edit, others, rfl, here⟩
  · left
    cases behind with
    | nil => rw [resultFrom_end respects remain clear]
    | cons head rest =>
        rw [(resultFrom_of_clear respects inside remain clear).2]
        rfl
  · rcases resultFrom_of_here respects split noFeed remain here with marked | feed
    · exact .inr (.inr marked)
    · exact .inr (.inl feed)

theorem lineEnds_resultFrom {lead behind : Text} {last : Char}
    (split : source = lead ++ last :: behind) (noFeed : last ≠ '\n') (remain : later <:+ edits)
    (ahead : ∀ edit ∈ later, source.size - behind.size ≤ edit.start)
    (ends : behind.LineEnds) : (resultFrom source behind later).LineEnds := by
  obtain ⟨blanks, tail, rfl, blank, breaks⟩ := ends
  have feeds (text : Text) (feed : text.head? = some '\n') : text.LineEnds :=
    .of_head? (by simp [feed, isLineBreak])
  have noMark (text : Text) (marked : source.Marked text) {char : Char}
      (first : text.head? = some char) : char = '@' :=
    Option.some.inj (first.symm.trans marked.head)
  induction blanks generalizing lead last with
  | nil =>
      rcases replaces_resultFrom respects split noFeed remain ahead with same | feed | marked
      · exact .of_head? (same ▸ breaks)
      · exact feeds _ feed
      · exact absurd (breaks '@' marked.head) (by decide)
  | cons head rest inductionHypothesis =>
      have inside : head :: (rest ++ tail) <:+ source := ⟨lead ++ [last], by simp [split]⟩
      rcases clear_or_here respects remain ahead with clear | ⟨edit, others, rfl, here⟩
      · obtain ⟨further, exact⟩ := resultFrom_of_clear respects inside remain clear
        rw [List.cons_append, exact]
        by_cases feed : head = '\n'
        · exact feeds _ (by rw [feed]; rfl)
        · obtain ⟨inner, others, same, innerBlank, ending⟩ := inductionHypothesis feed
            (by simp [split] : source = (lead ++ [last]) ++ head :: (rest ++ tail)) further
            (fun char member => blank char (List.mem_cons_of_mem head member))
          exact ⟨head :: inner, others, congrArg (head :: ·) same,
            List.forall_mem_cons.mpr ⟨blank head List.mem_cons_self, innerBlank⟩, ending⟩
      · rcases resultFrom_of_here respects split noFeed remain here with marked | feed
        · have solid := blank head List.mem_cons_self
          rw [noMark _ marked rfl] at solid
          cases solid
        · exact feeds _ feed

theorem ahead_of_outside {stretch behind : Text} (inside : stretch ++ behind <:+ source)
    (remain : later <:+ edits)
    (ahead : ∀ edit ∈ later, source.size - Text.size (stretch ++ behind) ≤ edit.start)
    (outside : ∀ edit ∈ later, ∀ front rest, stretch = front ++ rest → rest ≠ [] →
      source.dropBytes edit.start ≠ rest ++ behind) :
    ∀ edit ∈ later, source.size - behind.size ≤ edit.start := by
  intro edit left
  have fits := (respects.fits edit (remain.subset left)).1
  have low := ahead edit left
  have bound := fits.le_size
  have sizes := fits.size_dropBytes
  have all := Text.size_le_of_suffix inside
  have cutInside := dropBytes_suffix source edit.start
  have behindInside := (List.suffix_append stretch behind).trans inside
  by_contra early
  rw [Nat.not_le] at early
  obtain ⟨rest, exact⟩ := Text.suffix_of_size_le cutInside behindInside (by omega)
  obtain ⟨front, split⟩ := Text.suffix_of_size_le inside cutInside (by omega)
  rw [← exact, ← List.append_assoc] at split
  refine outside edit left front rest (List.append_cancel_right split).symm ?_ exact.symm
  rintro rfl
  rw [← exact, List.nil_append] at sizes
  omega

theorem ahead_of_uncut {stretch behind : Text} (inside : stretch ++ behind <:+ source)
    (uncut : source.Uncut stretch behind) (remain : later <:+ edits)
    (ahead : ∀ edit ∈ later, source.size - Text.size (stretch ++ behind) ≤ edit.start) :
    ∀ edit ∈ later, source.size - behind.size ≤ edit.start :=
  ahead_of_outside respects inside remain ahead fun edit left front rest split some =>
    uncut front rest split some edit.start (respects.cuts edit (remain.subset left))

omit respects in
theorem exists_last (stretch : Text) {behind : Text} (some : stretch ≠ []) (inLine : '\n' ∉ stretch)
    (inside : stretch ++ behind <:+ source) :
    ∃ front last, source = front ++ last :: behind ∧ last ≠ '\n' := by
  obtain ⟨lead, rfl⟩ := inside
  obtain ⟨others, last, rfl⟩ := (List.eq_nil_or_concat' stretch).resolve_left some
  refine ⟨lead ++ others, last, by simp, ?_⟩
  rintro rfl
  exact inLine (by simp)

/-! ## Tokens -/

section Tokens

variable (legible : source.Legible) (remain : later <:+ edits)

include legible remain

/-- A quote that opens no literal opens none in the result. -/
theorem behindToken_quote_resultFrom {rest : Text} (reached : source.Reached ('"' :: rest))
    (noLiteral : Region.afterQuoted? ('"' :: rest) = none)
    (ahead : ∀ edit ∈ later, source.size - rest.size ≤ edit.start) :
    Text.behindToken ('"' :: resultFrom source rest later) = resultFrom source rest later := by
  cases legible.literals rest reached with
  | closed closes =>
      rw [closes _ (.inl rfl)] at noLiteral
      cases noLiteral
  | @lone line behind inLine ends uncut opensNone =>
      have inside : line ++ behind <:+ source := (List.suffix_cons '"' _).trans reached.suffix
      have aheadBehind := ahead_of_uncut respects inside uncut remain ahead
      obtain ⟨front, last, split, noFeed⟩ := exists_last ('"' :: line)
        (List.cons_ne_nil _ _) (by simpa using inLine) reached.suffix
      have lineEnds := lineEnds_resultFrom respects split noFeed remain aheadBehind ends
      rw [resultFrom_append inside aheadBehind]
      exact Text.behindToken_lone (opensNone _ lineEnds)

theorem behindToken_slash_resultFrom {rest : Text} (reached : source.Reached ('/' :: rest))
    (noComment : afterComment? ('/' :: rest) = none)
    (ahead : ∀ edit ∈ later, source.size - rest.size ≤ edit.start) :
    Text.behindToken ('/' :: resultFrom source rest later) = resultFrom source rest later := by
  obtain ⟨front, last, split, noFeed⟩ := exists_last ['/']
    (List.cons_ne_nil _ _) (by decide) reached.suffix
  apply Text.behindToken_slash
  intro char first
  rcases replaces_resultFrom respects split noFeed remain ahead with same | feed | marked
  · rw [same] at first
    obtain ⟨others, rfl⟩ : ∃ others, rest = char :: others := List.head?_eq_some_iff.mp first
    intro member
    rcases List.mem_cons.mp member with rfl | member
    · cases noComment
    · cases List.mem_singleton.mp member
      obtain ⟨inner, behind, rfl, closes⟩ := legible.comments others reached
      rw [afterComment?, closes] at noComment
      cases noComment
  · rw [feed] at first
    cases Option.some.inj first
    decide
  · exact absurd rfl (legible.apart ['/'] rest reached marked).1

omit legible in
theorem behindToken_lineComment_resultFrom {words blanks : Text}
    (reached : source.Reached ('/' :: '/' :: words))
    (line : words = Text.commentWords words ++ (blanks ++ Region.afterLine words))
    (blank : ∀ char ∈ blanks, isWhitespace char = true) (ahead : ∀ edit ∈ later,
      source.size - Text.size (blanks ++ Region.afterLine words) ≤ edit.start) :
    Text.behindToken (resultFrom source ('/' :: '/' :: words) later) =
      resultFrom source (blanks ++ Region.afterLine words) later := by
  have whole : '/' :: '/' :: words =
      ('/' :: '/' :: Text.commentWords words) ++ (blanks ++ Region.afterLine words) :=
    congrArg ('/' :: '/' :: ·) line
  have inside := whole ▸ reached.suffix
  have exact := resultFrom_append inside ahead
  rw [← whole] at exact
  have ends : (blanks ++ Region.afterLine words).LineEnds := by
    refine ⟨blanks, _, rfl, blank, fun char first => ?_⟩
    have stops := List.head?_dropWhile_not (fun char => !isLineBreak char) words
    rw [show words.dropWhile (fun char => !isLineBreak char) = Region.afterLine words from rfl,
      first] at stops
    simpa using stops
  have quiet : '\n' ∉ '/' :: '/' :: Text.commentWords words := by
    intro member
    have inWords : '\n' ∈ Text.commentWords words := by simpa using member
    exact absurd (Text.isLineBreak_of_mem_commentWords inWords) (by decide)
  obtain ⟨front, last, split, noFeed⟩ := exists_last _ (List.cons_ne_nil _ _) quiet inside
  rw [exact]
  exact Text.behindToken_lineComment words
    (lineEnds_resultFrom respects split noFeed remain ahead ends)

theorem behindToken_literal_resultFrom {rest behind : Text} (reached : source.Reached ('"' :: rest))
    (closes : Region.afterQuoted? ('"' :: rest) = some behind)
    (ahead : ∀ edit ∈ later, source.size - behind.size ≤ edit.start) :
    Text.behindToken (resultFrom source ('"' :: rest) later) = resultFrom source behind later := by
  cases legible.literals rest reached with
  | lone inLine ends uncut opensNone =>
      rw [opensNone _ ends] at closes
      cases closes
  | @closed inner tail each =>
      cases (each tail (.inl rfl)).symm.trans closes
      have inside : ('"' :: inner) ++ behind <:+ source := reached.suffix
      obtain ⟨lead, whole⟩ := inside
      obtain ⟨others, last, ending⟩ :=
        (List.eq_nil_or_concat' ('"' :: inner)).resolve_left (List.cons_ne_nil _ _)
      have tokenSplit : '"' :: (inner ++ behind) = others ++ last :: behind := by
        rw [← List.cons_append, ending, List.append_assoc]
        rfl
      -- a literal may have line feeds in it, but it ends with a quote
      have noFeed : last ≠ '\n' := by
        rintro rfl
        by_cases single : others = []
        · rw [single] at ending
          cases ending
        · have solid := (Text.Token.literal closes).solid tokenSplit single
          cases solid
      have split : source = (lead ++ others) ++ last :: behind := by
        rw [← whole, List.cons_append, tokenSplit, List.append_assoc]
      have replaces := replaces_resultFrom respects split noFeed remain ahead
      rw [show '"' :: (inner ++ behind) = ('"' :: inner) ++ behind from rfl,
        resultFrom_append reached.suffix ahead]
      exact Text.behindToken_quoted (each _ replaces)

end Tokens

/-- Where no edit begins, the token at the head is read in the result as well. -/
theorem behindToken_resultFrom (legible : source.Legible) {head : Char} {rest : Text}
    (stand : Stand source edits (head :: rest) later) (clear : ClearAt source (head :: rest) later) :
    Text.behindToken (resultFrom source (head :: rest) later) =
      resultFrom source (Text.behindToken (head :: rest)) later := by
  have remain := stand.remain
  have reached := stand.reached
  have ahead := stand.ahead_of_clear respects clear
  obtain ⟨aheadRest, next⟩ := resultFrom_of_clear respects reached.suffix remain clear
  have token := Text.token_behindToken head rest
  generalize Text.behindToken (head :: rest) = behind at token ahead
  cases token with
  | char noComment noLiteral =>
      rw [next]
      by_cases quote : head = '"'
      · subst quote
        exact behindToken_quote_resultFrom respects legible remain reached noLiteral aheadRest
      by_cases slash : head = '/'
      · subst slash
        exact behindToken_slash_resultFrom respects legible remain reached noComment aheadRest
      · exact Text.behindToken_of_notMem (by simp [quote, slash]) _
  | lineComment line blank =>
      exact behindToken_lineComment_resultFrom respects remain reached line blank ahead
  | @blockComment words behind closes =>
      obtain ⟨inner, tail, rfl, each⟩ := legible.comments words reached
      cases (each tail).symm.trans closes
      have inside : ('/' :: '*' :: inner) ++ behind <:+ source := reached.suffix
      rw [show '/' :: '*' :: (inner ++ behind) = ('/' :: '*' :: inner) ++ behind from rfl,
        resultFrom_append inside ahead]
      exact Text.behindToken_comment (each _)
  | literal closes => exact behindToken_literal_resultFrom respects legible remain reached closes ahead

/-! ## Attributes -/

omit respects in
theorem Stand.forward {behind : Text} (stand : Stand source edits text later)
    (suffix : behind <:+ text) (reached : source.Reached behind)
    (ahead : ∀ edit ∈ later, source.size - behind.size ≤ edit.start) :
    Stand source edits behind later := by
  refine ⟨reached, stand.remain, fun edit member => ?_, fun edit left => .inl (ahead edit left)⟩
  exact (stand.behind edit member).imp
    (fun passed => passed.trans (start_le_start_of_suffix suffix)) id

section Attributes

variable (legible : source.Legible)

include legible

theorem name_resultFrom {name behind : Text} (word : name.isIdentifier = true)
    (ends : behind.EndsWord) (stand : Stand source edits ('@' :: (name ++ behind)) later)
    (clear : ClearAt source ('@' :: (name ++ behind)) later) :
    (∀ edit ∈ later, source.size - behind.size ≤ edit.start) ∧
      resultFrom source ('@' :: (name ++ behind)) later =
        '@' :: (name ++ resultFrom source behind later) ∧
      (resultFrom source behind later).EndsWord ∧
      ((resultFrom source behind later).head? = some '(' → behind.head? = some '(') := by
  have remain := stand.remain
  have inside := stand.reached.suffix
  have letters : ∀ char ∈ name, isIdentifierContinue char = true :=
    fun char => Text.isIdentifierContinue_of_mem word
  obtain ⟨aheadName, next⟩ := resultFrom_of_clear respects inside remain clear
  have nameInside : name ++ behind <:+ source := (List.suffix_cons '@' _).trans inside
  have ahead : ∀ edit ∈ later, source.size - behind.size ≤ edit.start := by
    refine ahead_of_outside respects nameInside remain aheadName ?_
    rintro edit left front rest rfl some start
    obtain ⟨head, others, rfl⟩ := List.exists_cons_of_ne_nil some
    obtain ⟨lead, whole⟩ := inside
    obtain ⟨before, last, split⟩ :=
      (List.eq_nil_or_concat' ('@' :: front)).resolve_left (List.cons_ne_nil _ _)
    have exact : source = (lead ++ before) ++ last :: head :: (others ++ behind) := by
      have pieces : '@' :: (front ++ head :: others ++ behind) =
          ('@' :: front) ++ head :: (others ++ behind) := by simp
      rw [← whole, pieces, split]
      simp
    obtain ⟨noMark, noLetter⟩ := respects.splits edit (remain.subset left) _ last head _ exact start
      (letters head (by simp))
    have member : last ∈ '@' :: front := by simp [split]
    rcases List.mem_cons.mp member with rfl | member
    · exact noMark rfl
    · rw [letters last (by simp [member])] at noLetter
      cases noLetter
  obtain ⟨front, last, split, noFeed⟩ := exists_last ('@' :: name)
    (List.cons_ne_nil _ _) (by
      simp only [List.mem_cons, not_or]
      refine ⟨by decide, fun member => ?_⟩
      exact ne_of_isIdentifierContinue (letters _ member) (by decide +kernel) rfl) inside
  refine ⟨ahead, ?_, ?_⟩
  · rw [next, resultFrom_append nameInside ahead]
  · rcases replaces_resultFrom respects split noFeed remain ahead with same | feed | marked
    · rw [Text.EndsWord, same]
      exact ⟨ends, id⟩
    · refine ⟨fun char first => ?_, fun first => ?_⟩
      · rw [feed] at first
        cases Option.some.inj first
        decide +kernel
      · rw [feed] at first
        cases first
    · exact absurd rfl ((legible.apart ('@' :: name) behind stand.reached marked).2 name letters)

/-- Where the source has no attribute, the result has none. -/
theorem identifier?_resultFrom {rest : Text} (stand : Stand source edits ('@' :: rest) later)
    (clear : ClearAt source ('@' :: rest) later) (unnamed : rest.identifier? = none) :
    Text.identifier? (resultFrom source rest later) = none := by
  have remain := stand.remain
  have inside := stand.reached.suffix
  obtain ⟨aheadRest, -⟩ := resultFrom_of_clear respects inside remain clear
  obtain ⟨front, last, split, noFeed⟩ := exists_last ['@']
    (List.cons_ne_nil _ _) (by decide) inside
  rw [Text.identifier?_eq_none_iff] at unnamed ⊢
  rcases replaces_resultFrom respects split noFeed remain aheadRest with same | feed | marked
  · rwa [same]
  · intro char first
    rw [feed] at first
    cases Option.some.inj first
    decide +kernel
  · exact absurd rfl ((legible.apart ['@'] rest stand.reached marked).2 [] (by simp))

/-- Behind the name of an attribute that stays, the result has the arguments of the source, and none
where the source has none. -/
theorem arguments_resultFrom {name behind : Text} (word : name.isIdentifier = true)
    (foreign : MacroName.ofText? name = none)
    (stand : Stand source edits ('@' :: (name ++ behind)) later)
    (clear : ClearAt source ('@' :: (name ++ behind)) later)
    (ahead : ∀ edit ∈ later, source.size - behind.size ≤ edit.start)
    (opens : (resultFrom source behind later).head? = some '(' → behind.head? = some '(') :
    ∃ last, Stand source edits last later ∧
      (Text.afterArguments? (resultFrom source behind later)).getD (resultFrom source behind later) =
        resultFrom source last later := by
  have suffix : behind <:+ '@' :: (name ++ behind) :=
    (List.suffix_append name behind).trans (List.suffix_cons '@' _)
  by_cases paren : behind.head? = some '('
  · obtain ⟨content, rfl⟩ : ∃ content, behind = '(' :: content := List.head?_eq_some_iff.mp paren
    obtain ⟨inner, last, rfl, reached, uncut, closes⟩ :=
      legible.arguments name content stand.reached word foreign
    have inside : ('(' :: inner) ++ last <:+ source := suffix.trans stand.reached.suffix
    have aheadLast := ahead_of_uncut respects inside uncut stand.remain ahead
    refine ⟨last, stand.forward ?_ reached aheadLast, ?_⟩
    · exact (List.suffix_append ('(' :: inner) last).trans suffix
    · rw [show '(' :: (inner ++ last) = ('(' :: inner) ++ last from rfl,
        resultFrom_append inside aheadLast, List.cons_append, closes]
      rfl
  · have reached := (stand.pass respects clear).reached
    rw [Text.behindToken_of_notMem (by decide)] at reached
    refine ⟨behind, stand.forward suffix ?_ ahead, ?_⟩
    · exact reached.of_calm_append (Text.markless_of_isIdentifier word).calm
    · rw [Text.afterArguments?_of_head? fun first => paren (opens first)]
      rfl

/-- An attribute of the result where no edit begins is one that stays, and ends where the source
is read further. -/
theorem readAttribute_resultFrom {rest : Text} (stand : Stand source edits ('@' :: rest) later)
    (clear : ClearAt source ('@' :: rest) later)
    (foreign : ∀ used behind, readAttribute source.size ('@' :: rest) = some (used, behind) →
      used.macroName? = none) {total : Nat}
    (small : (resultFrom source ('@' :: rest) later).size ≤ total) {written : Attribute} {after : Text}
    (read : readAttribute total (resultFrom source ('@' :: rest) later) = some (written, after)) :
    written.macroName? = none ∧
      ∃ behind, Stand source edits behind later ∧ after = resultFrom source behind later := by
  have remain := stand.remain
  have inside := stand.reached.suffix
  obtain ⟨aheadRest, next⟩ := resultFrom_of_clear respects inside remain clear
  obtain ⟨tail, split, writtenWord, tailEnds, rfl⟩ := readAttribute_eq small read
  rw [next] at split
  have resultNamed := Text.identifier?_append writtenWord tailEnds
  rw [← (List.cons.inj split).2] at resultNamed
  cases named : Text.identifier? rest with
  | none =>
      rw [identifier?_resultFrom respects legible stand clear named] at resultNamed
      cases resultNamed
  | some found =>
      obtain ⟨name, behind⟩ := found
      have word := identifier?_answers _ _ _ named
      have ends := Text.endsWord_of_identifier? named
      obtain rfl := Text.append_of_identifier? named
      obtain ⟨ahead, exact, resultEnds, opens⟩ :=
        name_resultFrom respects legible word ends stand clear
      rw [next] at exact
      rw [(List.cons.inj exact).2, Text.identifier?_append word resultEnds] at resultNamed
      obtain ⟨rfl, rfl⟩ := Prod.mk.inj (Option.some.inj resultNamed)
      obtain ⟨used, usedRest, usedRead, usedName⟩ := exists_readAttribute source.size word ends
      have noMacro : MacroName.ofText? written.name = none := by
        rw [← usedName]
        exact foreign _ _ usedRead
      obtain ⟨last, further, same⟩ :=
        arguments_resultFrom respects legible word noMacro stand clear ahead opens
      exact ⟨noMacro, last, further, same⟩

end Attributes

/-! ## Runs -/

omit respects in
/-- What is left of a result: text that brings no macro, and what is kept of the source behind a
place where no edit begins. -/
def Aligned (source : Text) (edits : List Edit) (output : Text) : Prop :=
  ∃ words text later, MacroFree words ∧ Stand source edits text later ∧
    ClearAt source text later ∧ output = words ++ resultFrom source text later

theorem Stand.aligned (words : Text) (free : MacroFree words)
    (stand : Stand source edits text later) :
    Aligned source edits (words ++ resultFrom source text later) := by
  induction later generalizing words text with
  | nil => exact ⟨words, text, [], free, stand, by simp [ClearAt], rfl⟩
  | cons edit others inductionHypothesis =>
      rcases Nat.lt_trichotomy edit.start (source.size - text.size) with front | here | ahead
      · obtain ⟨next, same⟩ := stand.skip front
        rw [same]
        exact inductionHypothesis _ free next
      · obtain ⟨next, same⟩ := stand.apply respects here
        rw [same, ← List.append_assoc]
        have member := stand.remain.subset List.mem_cons_self
        exact inductionHypothesis _ (free.append (respects.brings edit member)) next
      · have clear := clearAt_cons respects stand.remain ahead
        exact ⟨words, text, edit :: others, free, stand, clear, rfl⟩

variable (legible : source.Legible)

include legible

theorem Aligned.behindToken {head : Char} {rest : Text}
    (aligned : Aligned source edits (head :: rest)) :
    Aligned source edits (Text.behindToken (head :: rest)) := by
  obtain ⟨words, text, later, free, stand, clear, exact⟩ := aligned
  cases words with
  | cons first others =>
      rw [List.cons_append] at exact
      obtain ⟨rfl, rfl⟩ := List.cons.inj exact
      rw [Text.behindToken_of_notMem (free.plain head List.mem_cons_self)]
      exact ⟨others, text, later, free.of_suffix (List.suffix_cons head others), stand, clear, rfl⟩
  | nil =>
      cases text with
      | nil =>
          rw [resultFrom_end respects stand.remain clear] at exact
          cases exact
      | cons first others =>
          rw [exact, List.nil_append, behindToken_resultFrom respects legible stand clear]
          exact (stand.pass respects clear).aligned respects [] (.of_calm (by decide))

theorem Aligned.attribute {total : Nat} {output after : Text} {written : Attribute}
    (aligned : Aligned source edits output) (small : output.size ≤ total)
    (foreign : ∀ text used behind, source.Reached text → ¬ source.Marked text →
      readAttribute source.size text = some (used, behind) → used.macroName? = none)
    (read : readAttribute total output = some (written, after)) :
    written.macroName? = none ∧ Aligned source edits after := by
  obtain ⟨words, text, later, free, stand, clear, rfl⟩ := aligned
  cases words with
  | cons first others =>
      obtain rfl : first = '@' := by
        by_contra noMark
        rw [List.cons_append, readAttribute_of_noMark noMark] at read
        cases read
      obtain ⟨named, kept, suffix, rfl⟩ := free.foreign [] others rfl _ _ _ _ read
      refine ⟨named, kept, text, later, ?_, stand, clear, rfl⟩
      exact free.of_suffix (suffix.trans (List.suffix_cons '@' others))
  | nil =>
      rw [List.nil_append] at small read
      cases text with
      | nil =>
          rw [resultFrom_end respects stand.remain clear] at read
          cases read
      | cons first others =>
          obtain rfl : first = '@' := by
            by_contra noMark
            rw [(resultFrom_of_clear respects stand.reached.suffix stand.remain clear).2,
              readAttribute_of_noMark noMark] at read
            cases read
          obtain ⟨named, behind, next, rfl⟩ := readAttribute_resultFrom respects legible stand clear
            (fun used behind => foreign _ used behind stand.reached (stand.unmarked respects clear))
            small read
          exact ⟨named, next.aligned respects [] (.of_calm (by decide))⟩

theorem sitesFrom_result_eq_nil {total : Nat} (small : (resultFrom source source edits).size ≤ total)
    (foreign : ∀ text used behind, source.Reached text → ¬ source.Marked text →
      readAttribute source.size text = some (used, behind) → used.macroName? = none) :
    sitesFrom total (resultFrom source source edits) = [] := by
  apply Text.sitesFrom_eq_nil_of_tokens
    (fun output : Text => output.size ≤ total ∧ Aligned source edits output)
  · rintro head rest ⟨bound, aligned⟩
    have shorter := Text.size_le_of_suffix
      ((Text.behindToken_suffix head rest).trans (List.suffix_cons head rest))
    exact ⟨shorter.trans bound, aligned.behindToken respects legible⟩
  · rintro output written after ⟨bound, aligned⟩ read
    obtain ⟨named, rest⟩ := aligned.attribute respects legible bound foreign read
    have shorter := Text.size_le_of_suffix (readAttribute_leavesSuffix total _ _ _ read)
    exact ⟨named, shorter.trans bound, rest⟩
  · exact ⟨small, (Stand.start source edits).aligned respects [] (.of_calm (by decide))⟩

/-- As long as no site is found, reading the result comes to every place that no edit covers. -/
theorem exists_stand {total : Nat} {place : Text} (reached : source.Reached place)
    (uncovered : ∀ edit ∈ edits,
      source.size - place.size < edit.start ∨ edit.stop ≤ source.size - place.size)
    (stand : Stand source edits text later) (suffix : place <:+ text)
    (none : sitesFrom total (resultFrom source text later) = []) :
    ∃ later, Stand source edits place later ∧ ClearAt source place later ∧
      sitesFrom total (resultFrom source place later) = [] := by
  induction measured : text.length + later.length using Nat.strongRecOn generalizing text later with
  | ind length inductionHypothesis =>
      subst length
      have pass (clear : ClearAt source text later) : ∃ later, Stand source edits place later ∧
          ClearAt source place later ∧ sitesFrom total (resultFrom source place later) = [] := by
        rcases Nat.lt_or_ge place.length text.length with further | same
        · cases text with
          | nil => exact absurd further (Nat.not_lt_zero _)
          | cons head rest =>
              have deeper := stand.reached.suffix_past reached further
              rw [Text.past_of_not_marked stand.reached.suffix (stand.unmarked respects clear)] at deeper
              have shorter := (Text.behindToken_suffix head rest).length_le
              have next := (resultFrom_of_clear respects stand.reached.suffix stand.remain clear).2
              rw [next] at none
              have passed := Text.sitesFrom_behindToken_eq_nil none
              rw [← next, behindToken_resultFrom respects legible stand clear] at passed
              refine inductionHypothesis _ ?_ (stand.pass respects clear) deeper passed rfl
              rw [List.length_cons]
              omega
        · obtain rfl := suffix.eq_of_length_le same
          exact ⟨later, stand, clear, none⟩
      cases later with
      | nil => exact pass (by simp [ClearAt])
      | cons edit others =>
          have member := stand.remain.subset List.mem_cons_self
          rcases Nat.lt_trichotomy edit.start (source.size - text.size) with front | here | ahead
          · obtain ⟨next, same⟩ := stand.skip front
            rw [same] at none
            exact inductionHypothesis _ (by rw [List.length_cons]; omega) next suffix none rfl
          · obtain ⟨next, same⟩ := stand.apply respects here
            rw [same] at none
            have further := Text.size_le_of_suffix suffix
            have beyond := (uncovered edit member).resolve_left (by omega)
            obtain ⟨onward, deeper⟩ := stand.apply_suffix respects here suffix beyond
            have shorter := onward.length_le
            refine inductionHypothesis _ ?_ next deeper
              (Text.sitesFrom_eq_nil_of_append (respects.brings edit member).plain none) rfl
            rw [List.length_cons]
            omega
          · exact pass (clearAt_cons respects stand.remain ahead)

/-- The result has no site exactly if no attribute that stays names a macro. -/
theorem sitesFrom_result_eq_nil_iff {total : Nat}
    (small : (resultFrom source source edits).size ≤ total) :
    sitesFrom total (resultFrom source source edits) = [] ↔
      ∀ text used behind, source.Reached text → ¬ source.Marked text →
        readAttribute source.size text = some (used, behind) → used.macroName? = none := by
  refine ⟨fun empty text used behind reached unmarked read => ?_,
    sitesFrom_result_eq_nil respects legible small⟩
  by_contra named
  obtain ⟨rest, rfl, word, ends, -⟩ := readAttribute_eq (Text.size_le_of_suffix reached.suffix) read
  obtain ⟨later, stand, clear, noSites⟩ := exists_stand respects legible reached (fun edit member => by
    by_contra covered
    rw [not_or, Nat.not_lt, Nat.not_le] at covered
    rcases respects.covers edit member _ _ reached covered.1 covered.2 with marked | blank
    · exact unmarked marked
    · cases blank) (.start source edits) reached.suffix empty
  obtain ⟨-, exact, resultEnds, -⟩ := name_resultFrom respects legible word ends stand clear
  obtain ⟨written, after, resultRead, same⟩ := exists_readAttribute total word resultEnds
  obtain ⟨site, beyond, found⟩ := exists_readSite_of_macroName resultRead (by
    rw [Attribute.macroName?, same]
    exact named)
  rw [exact, sitesFrom_of_readSite (skipTrivia_of_token (by decide) (by decide) _) found] at noSites
  cases noSites

end Respects

end Edit

end StyleMacros
