import StyleMacros.Source.Site
import StyleMacros.Proofs.Source.Headers

/-!
# The scanners without their fuel

Every piece of a region has a character, so the length of a text is fuel enough. From this come
equations for the content of a region, for trivia and for the sites of a text in which no fuel
appears.
-/

set_option autoImplicit false

namespace StyleMacros

theorem findSome?_congr_of_mem {Item Result : Type} {items : List Item}
    {first second : Item → Option Result} (same : ∀ item ∈ items, first item = second item) :
    items.findSome? first = items.findSome? second := by
  induction items with
  | nil => rfl
  | cons item others inductionHypothesis =>
      rw [List.findSome?_cons, List.findSome?_cons, same item List.mem_cons_self,
        inductionHypothesis fun other member => same other (List.mem_cons_of_mem item member)]

namespace Region

/-! ## Openings and plain pieces have a character -/

def OpensPastHead (find : Text → List (Region × Text)) : Prop :=
  ∀ text opened, opened ∈ find text → opened.2.length < text.length

theorem quoteOpenings_opensPastHead : OpensPastHead quoteOpenings := by
  intro text opened member
  unfold quoteOpenings at member
  split at member
  · simp only [List.mem_cons, List.not_mem_nil, or_false] at member
    rcases member with rfl | rfl <;> simp only [List.length_cons] <;> omega
  · cases List.mem_singleton.mp member
    simp only [List.length_cons]
    omega
  · exact absurd member List.not_mem_nil

theorem commentOpenings_opensPastHead : OpensPastHead commentOpenings := by
  intro text opened member
  unfold commentOpenings at member
  split at member
  · cases List.mem_singleton.mp member
    simp only [List.length_cons]
    omega
  · exact absurd member List.not_mem_nil

theorem interpolationOpenings_opensPastHead : OpensPastHead interpolationOpenings := by
  intro text opened member
  unfold interpolationOpenings at member
  split at member
  · cases List.mem_singleton.mp member
    simp only [List.length_cons]
    omega
  · exact absurd member List.not_mem_nil

theorem roundOpenings_opensPastHead : OpensPastHead roundOpenings := by
  intro text opened member
  unfold roundOpenings at member
  split at member
  · cases List.mem_singleton.mp member
    simp only [List.length_cons]
    omega
  · exact absurd member List.not_mem_nil

theorem squareOpenings_opensPastHead : OpensPastHead squareOpenings := by
  intro text opened member
  unfold squareOpenings at member
  split at member
  · cases List.mem_singleton.mp member
    simp only [List.length_cons]
    omega
  · exact absurd member List.not_mem_nil

theorem curlyOpenings_opensPastHead : OpensPastHead curlyOpenings := by
  intro text opened member
  unfold curlyOpenings at member
  split at member
  · cases List.mem_singleton.mp member
    simp only [List.length_cons]
    omega
  · exact absurd member List.not_mem_nil

theorem angleOpenings_opensPastHead : OpensPastHead angleOpenings := by
  intro text opened member
  unfold angleOpenings at member
  split at member
  · cases List.mem_singleton.mp member
    simp only [List.length_cons]
    omega
  · exact absurd member List.not_mem_nil

theorem OpensPastHead.append {first second : Text → List (Region × Text)}
    (left : OpensPastHead first) (right : OpensPastHead second) :
    OpensPastHead (fun text => first text ++ second text) := by
  intro text opened member
  rcases List.mem_append.mp member with member | member
  · exact left text opened member
  · exact right text opened member

theorem openings_opensPastHead (region : Region) : OpensPastHead region.openings := by
  have bracketed : OpensPastHead (fun text => quoteOpenings text ++ commentOpenings text ++
      roundOpenings text ++ squareOpenings text ++ curlyOpenings text) :=
    (((quoteOpenings_opensPastHead.append commentOpenings_opensPastHead).append
      roundOpenings_opensPastHead).append squareOpenings_opensPastHead).append
      curlyOpenings_opensPastHead
  cases region with
  | comment => exact commentOpenings_opensPastHead
  | literal => exact interpolationOpenings_opensPastHead
  | multiline => intro text opened member; simp [openings] at member
  | interpolation => exact quoteOpenings_opensPastHead.append roundOpenings_opensPastHead
  | round => exact bracketed
  | square => exact bracketed
  | curly => exact bracketed
  | angle => exact angleOpenings_opensPastHead
  | body =>
      exact (quoteOpenings_opensPastHead.append commentOpenings_opensPastHead).append
        curlyOpenings_opensPastHead
  | value =>
      exact ((roundOpenings_opensPastHead.append squareOpenings_opensPastHead).append
        curlyOpenings_opensPastHead).append quoteOpenings_opensPastHead
  | constraint =>
      exact (angleOpenings_opensPastHead.append roundOpenings_opensPastHead).append
        squareOpenings_opensPastHead
  | requirements =>
      exact (roundOpenings_opensPastHead.append squareOpenings_opensPastHead).append
        angleOpenings_opensPastHead

theorem otherThan_shorter {stops : List Char} {text rest : Text}
    (success : otherThan stops text = some rest) : rest.length < text.length := by
  cases text with
  | nil => simp [otherThan] at success
  | cons head tail =>
      simp only [otherThan] at success
      split at success
      · simp at success
      · cases Option.some.inj success
        simp

theorem lineCommentOr_shorter {stops : List Char} {text rest : Text}
    (success : lineCommentOr stops text = some rest) : rest.length < text.length := by
  unfold lineCommentOr at success
  split at success
  · rename_i comment
    cases Option.some.inj success
    have length := (afterLine_suffix comment).length_le
    simp only [List.length_cons]
    omega
  · exact otherThan_shorter success

theorem escapeOr_shorter {stops : List Char} {text rest : Text}
    (success : escapeOr stops text = some rest) : rest.length < text.length := by
  unfold escapeOr at success
  split at success
  · cases Option.some.inj success
    simp only [List.length_cons]
    omega
  · exact otherThan_shorter success

theorem arrowOr_shorter {stops : List Char} {text rest : Text}
    (success : arrowOr stops text = some rest) : rest.length < text.length := by
  unfold arrowOr at success
  split at success
  · cases Option.some.inj success
    simp only [List.length_cons]
    omega
  · exact otherThan_shorter success

theorem plain_shorter {region : Region} {text rest : Text}
    (success : region.plain text = some rest) : rest.length < text.length := by
  unfold plain at success
  cases region with
  | comment =>
      simp only at success
      split at success
      · simp at success
      · exact otherThan_shorter success
  | literal => exact escapeOr_shorter success
  | multiline =>
      simp only at success
      split at success
      · simp at success
      · exact escapeOr_shorter success
  | interpolation => exact otherThan_shorter success
  | round => exact lineCommentOr_shorter success
  | square => exact lineCommentOr_shorter success
  | curly => exact lineCommentOr_shorter success
  | angle => exact arrowOr_shorter success
  | body => exact lineCommentOr_shorter success
  | value => exact otherThan_shorter success
  | constraint => exact arrowOr_shorter success
  | requirements => exact otherThan_shorter success

/-! ## Content -/

/-- The fuel makes no difference if there is a unit for each character. -/
theorem contentWithin_eq_of_length_le {fuel fuel' : Nat} {region : Region} {text : Text}
    (enough : text.length ≤ fuel) (enough' : text.length ≤ fuel') :
    contentWithin fuel region text = contentWithin fuel' region text := by
  induction fuel generalizing fuel' region text with
  | zero =>
      cases List.length_eq_zero_iff.mp (Nat.le_zero.mp enough)
      cases fuel' with
      | zero => rfl
      | succ fuel' => cases region <;> rfl
  | succ fuel inductionHypothesis =>
      cases fuel' with
      | zero =>
          cases List.length_eq_zero_iff.mp (Nat.le_zero.mp enough')
          cases region <;> rfl
      | succ fuel' =>
          have inner : (region.openings text).findSome?
                (fun opened => opened.1.afterClosing (contentWithin fuel opened.1 opened.2)) =
              (region.openings text).findSome?
                (fun opened => opened.1.afterClosing (contentWithin fuel' opened.1 opened.2)) := by
            apply findSome?_congr_of_mem
            intro opened member
            have shorter := openings_opensPastHead region text opened member
            have same : contentWithin fuel opened.1 opened.2 =
                contentWithin fuel' opened.1 opened.2 :=
              inductionHypothesis (by omega) (by omega)
            rw [same]
          rw [contentWithin, contentWithin, ← inner]
          cases found : (region.openings text).findSome?
              (fun opened => opened.1.afterClosing (contentWithin fuel opened.1 opened.2)) with
          | some rest =>
              obtain ⟨opened, member, closes⟩ := List.exists_of_findSome?_eq_some found
              have shorter := openings_opensPastHead region text opened member
              have behind := ((afterClosing_suffix closes).trans
                (contentWithin_suffix fuel opened.1 opened.2)).length_le
              exact inductionHypothesis (by omega) (by omega)
          | none =>
              cases success : region.plain text with
              | some rest =>
                  have shorter := plain_shorter success
                  exact inductionHypothesis (by omega) (by omega)
              | none => rfl

/-- The region that opens at the head of the text and closes, if there is one. -/
def afterInner? (region : Region) (text : Text) : Option Text :=
  (region.openings text).findSome? fun opened => opened.1.finish? opened.2

theorem afterInner?_shorter {region : Region} {text rest : Text}
    (success : region.afterInner? text = some rest) : rest.length < text.length := by
  obtain ⟨opened, member, closes⟩ := List.exists_of_findSome?_eq_some success
  have shorter := openings_opensPastHead region text opened member
  have behind := (finish?_suffix closes).length_le
  omega

/-- What a region holds at the head of a text: an inner region that closes, a plain piece, or
the end of its content. -/
theorem afterContent_eq (region : Region) (text : Text) :
    region.afterContent text =
      match region.afterInner? text with
      | some rest => region.afterContent rest
      | none =>
        match region.plain text with
        | some rest => region.afterContent rest
        | none => text := by
  cases text with
  | nil => cases region <;> rfl
  | cons head tail =>
      have inner : (region.openings (head :: tail)).findSome? (fun opened =>
            opened.1.afterClosing (contentWithin tail.length opened.1 opened.2)) =
          region.afterInner? (head :: tail) := by
        apply findSome?_congr_of_mem
        intro opened member
        have shorter := openings_opensPastHead region _ opened member
        rw [List.length_cons] at shorter
        rw [finish?, afterContent,
          contentWithin_eq_of_length_le (Nat.le_of_lt_succ shorter) (Nat.le_refl _)]
      rw [afterContent, List.length_cons, contentWithin, inner]
      cases found : region.afterInner? (head :: tail) with
      | some rest =>
          have shorter := afterInner?_shorter found
          exact contentWithin_eq_of_length_le (Nat.le_of_lt_succ shorter) (Nat.le_refl _)
      | none =>
          cases success : region.plain (head :: tail) with
          | some rest =>
              have shorter := plain_shorter success
              exact contentWithin_eq_of_length_le (Nat.le_of_lt_succ shorter) (Nat.le_refl _)
          | none => rfl

theorem afterContent_of_inner {region : Region} {text rest : Text}
    (inner : region.afterInner? text = some rest) :
    region.afterContent text = region.afterContent rest := by
  rw [afterContent_eq, inner]

theorem afterContent_of_plain {region : Region} {text rest : Text}
    (inner : region.afterInner? text = none) (plain : region.plain text = some rest) :
    region.afterContent text = region.afterContent rest := by
  rw [afterContent_eq, inner]
  simp only [plain]

theorem afterContent_of_none {region : Region} {text : Text}
    (inner : region.afterInner? text = none) (plain : region.plain text = none) :
    region.afterContent text = text := by
  rw [afterContent_eq, inner]
  simp only [plain]

end Region

/-! ## Trivia -/

theorem skipTriviaWithin_eq_of_length_le {fuel fuel' : Nat} {text : Text}
    (enough : text.length ≤ fuel) (enough' : text.length ≤ fuel') :
    skipTriviaWithin fuel text = skipTriviaWithin fuel' text := by
  induction fuel generalizing fuel' text with
  | zero =>
      cases List.length_eq_zero_iff.mp (Nat.le_zero.mp enough)
      cases fuel' <;> rfl
  | succ fuel inductionHypothesis =>
      cases text with
      | nil => cases fuel' <;> rfl
      | cons head rest =>
          cases fuel' with
          | zero => simp at enough'
          | succ fuel' =>
              rw [List.length_cons] at enough enough'
              simp only [skipTriviaWithin]
              split
              · exact inductionHypothesis (by omega) (by omega)
              · split
                · rename_i comment _
                  have length := (Region.afterLine_suffix comment).length_le
                  rw [List.length_cons] at enough enough'
                  exact inductionHypothesis (by omega) (by omega)
                · rename_i comment _
                  split
                  · rename_i behind closes
                    have length := (Region.finish?_suffix closes).length_le
                    rw [List.length_cons] at enough enough'
                    exact inductionHypothesis (by omega) (by omega)
                  · rfl
                · rfl

def afterComment? : Text → Option Text
  | '/' :: '/' :: comment => some (Region.afterLine comment)
  | '/' :: '*' :: comment => Region.comment.finish? comment
  | _ => none

theorem afterComment?_suffix {head : Char} {rest behind : Text}
    (success : afterComment? (head :: rest) = some behind) : behind <:+ rest := by
  unfold afterComment? at success
  split at success
  · rename_i comment same
    cases same
    cases Option.some.inj success
    exact (Region.afterLine_suffix comment).trans (List.suffix_cons _ _)
  · rename_i comment same
    cases same
    exact (Region.finish?_suffix success).trans (List.suffix_cons _ _)
  · simp at success

/-- What is skipped at the head of a text: a blank, or a comment. -/
theorem skipTrivia_cons (head : Char) (rest : Text) :
    skipTrivia (head :: rest) =
      if isTokenBlank head then skipTrivia rest
      else
        match afterComment? (head :: rest) with
        | some behind => skipTrivia behind
        | none => head :: rest := by
  rw [skipTrivia, List.length_cons]
  simp only [skipTriviaWithin]
  split
  · rfl
  · split
    · rename_i comment _
      have length := ((Region.afterLine_suffix comment).trans (List.suffix_cons '/' _)).length_le
      exact skipTriviaWithin_eq_of_length_le length (Nat.le_refl _)
    · rename_i comment _
      cases closes : Region.comment.finish? comment with
      | some behind =>
          have length := ((Region.finish?_suffix closes).trans (List.suffix_cons '*' _)).length_le
          simp only [afterComment?, closes]
          exact skipTriviaWithin_eq_of_length_le length (Nat.le_refl _)
      | none => simp only [afterComment?, closes]
    · rename_i noLine noBlock
      have none : afterComment? (head :: rest) = none := by
        unfold afterComment?
        split
        · rename_i comment same
          cases same
          exact absurd rfl (noLine comment rfl)
        · rename_i comment same
          cases same
          exact absurd rfl (noBlock comment rfl)
        · rfl
      rw [none]

theorem skipTrivia_of_blank {head : Char} (blank : isTokenBlank head = true) (rest : Text) :
    skipTrivia (head :: rest) = skipTrivia rest := by
  rw [skipTrivia_cons, if_pos blank]

theorem afterComment?_of_noSlash {head : Char} (noSlash : head ≠ '/') (rest : Text) :
    afterComment? (head :: rest) = none := by
  simp [afterComment?, noSlash]

theorem skipTrivia_blanks_append {gap : Text} (blank : ∀ char ∈ gap, isTokenBlank char = true)
    (rest : Text) : skipTrivia (gap ++ rest) = skipTrivia rest := by
  induction gap with
  | nil => rfl
  | cons head tail inductionHypothesis =>
      rw [List.cons_append, skipTrivia_of_blank (blank head List.mem_cons_self)]
      exact inductionHypothesis fun char member => blank char (List.mem_cons_of_mem head member)

theorem skipTrivia_of_token {head : Char} (token : isTokenBlank head = false)
    (noSlash : head ≠ '/') (rest : Text) : skipTrivia (head :: rest) = head :: rest := by
  rw [skipTrivia_cons, if_neg (Bool.eq_false_iff.mp token), afterComment?_of_noSlash noSlash]

theorem skipTrivia_skipTrivia (text : Text) : skipTrivia (skipTrivia text) = skipTrivia text := by
  induction length : text.length using Nat.strongRecOn generalizing text with
  | ind length inductionHypothesis =>
      subst length
      cases text with
      | nil => rfl
      | cons head rest =>
          have start := skipTrivia_cons head rest
          split at start
          · rw [start]
            exact inductionHypothesis rest.length (Nat.lt_succ_self _) rest rfl
          · split at start
            · rename_i behind comment
              have suffix := (afterComment?_suffix comment).length_le
              rw [start]
              exact inductionHypothesis behind.length (Nat.lt_succ_of_le suffix) behind rfl
            · rw [start, start]

/-! ## Sites -/

theorem readTarget_suffix (total : Nat) (text : Text) : (readTarget total text).2 <:+ text := by
  unfold readTarget
  split
  · rename_i written rest success
    exact readDeclaration_leavesSuffix total _ _ _ success
  · split
    · rename_i word span rest success
      exact (readUnsupported_exposes_span success).1
    · exact List.suffix_refl text

theorem readAttribute_shorter {total : Nat} {text rest : Text} {written : Attribute}
    (success : readAttribute total text = some (written, rest)) : rest.length < text.length := by
  obtain ⟨behind, exact, _, ends, _⟩ := readAttribute_exposes_parts success
  have length : rest.length ≤ behind.length := by
    rcases ends with rfl | closes
    · exact Nat.le_refl _
    · exact ((List.suffix_cons ')' rest).trans closes).length_le
  rw [exact]
  simp only [List.length_append, List.length_cons]
  omega

theorem skipTrivia_of_readAttribute {total : Nat} {text rest : Text} {written : Attribute}
    (success : readAttribute total text = some (written, rest)) : skipTrivia text = text := by
  obtain ⟨behind, exact, -⟩ := readAttribute_exposes_parts success
  rw [exact]
  exact skipTrivia_of_token (by decide) (by decide) _

theorem ReadsInTurn.of_readAttribute {total : Nat} {text behind last : Text} {first : Attribute}
    {others : List Attribute} (success : readAttribute total text = some (first, behind))
    (later : ReadsInTurn (readAttribute total) behind others last) :
    ReadsInTurn (readAttribute total) text (first :: others) last :=
  .next ((skipTrivia_of_readAttribute success).symm ▸ success) later

/-- What a site consists of: attributes one after the other, one of which names a macro, and what
stands behind them. -/
theorem readSite_exposes_parts {total : Nat} {text rest : Text} {site : Site}
    (success : readSite total text = some (site, rest)) :
    ∃ first others behind last, site.attributes = first :: others ∧
      readAttribute total text = some (first, behind) ∧
      ReadsInTurn (readAttribute total) behind others last ∧
      site.attributes.any (fun written => written.macroName?.isSome) = true ∧
      readTarget total (skipTrivia last) = (site.target, rest) ∧
      site.span = .between total text rest := by
  unfold readSite at success
  split at success
  · cases success
  · rename_i first behind firstRead
    simp only at success
    split at success
    · rename_i named
      cases Option.some.inj success
      exact ⟨first, _, behind, _, rfl, firstRead, readMany_readsInTurn _ _ _, named, rfl, rfl⟩
    · cases success

theorem readSite_suffix_attribute {total : Nat} {text rest : Text} {site : Site}
    (success : readSite total text = some (site, rest)) :
    ∃ first behind, readAttribute total text = some (first, behind) ∧ rest <:+ behind := by
  obtain ⟨first, others, behind, last, -, firstRead, later, -, targetRead, -⟩ :=
    readSite_exposes_parts success
  have target := readTarget_suffix total (skipTrivia last)
  rw [targetRead] at target
  exact ⟨first, behind, firstRead, (target.trans (skipTrivia_suffix last)).trans
    (later.suffix (readAttribute_leavesSuffix total))⟩

theorem readSite_leavesSuffix (total : Nat) : LeavesSuffix (readSite total) := by
  intro text site rest success
  obtain ⟨first, behind, firstRead, suffix⟩ := readSite_suffix_attribute success
  exact suffix.trans (readAttribute_leavesSuffix total _ _ _ firstRead)

theorem readSite_shorter {total : Nat} {text rest : Text} {site : Site}
    (success : readSite total text = some (site, rest)) : rest.length < text.length := by
  obtain ⟨first, behind, firstRead, suffix⟩ := readSite_suffix_attribute success
  exact Nat.lt_of_le_of_lt suffix.length_le (readAttribute_shorter firstRead)

theorem afterSkipped_shorter (head : Char) (rest : Text) :
    (afterSkipped (head :: rest)).length ≤ rest.length := by
  unfold afterSkipped
  cases quoted : Region.afterQuoted? (head :: rest) with
  | none => exact Nat.le_refl _
  | some behind =>
      obtain ⟨opened, member, closes⟩ := List.exists_of_findSome?_eq_some quoted
      have shorter := Region.quoteOpenings_opensPastHead _ opened member
      have suffix := (Region.finish?_suffix closes).length_le
      rw [List.length_cons] at shorter
      exact Nat.le_trans suffix (Nat.le_of_lt_succ shorter)

theorem readSitesWithin_eq_of_length_lt {total fuel fuel' : Nat} {text : Text}
    (enough : text.length < fuel) (enough' : text.length < fuel') :
    readSitesWithin total fuel text = readSitesWithin total fuel' text := by
  induction fuel generalizing fuel' text with
  | zero => omega
  | succ fuel inductionHypothesis =>
      cases fuel' with
      | zero => omega
      | succ fuel' =>
          rw [readSitesWithin, readSitesWithin]
          have skipped := (skipTrivia_suffix text).length_le
          cases remaining : skipTrivia text with
          | nil => rfl
          | cons head rest =>
              rw [remaining, List.length_cons] at skipped
              simp only
              cases success : readSite total (head :: rest) with
              | some found =>
                  obtain ⟨site, behind⟩ := found
                  have shorter := readSite_shorter success
                  rw [List.length_cons] at shorter
                  have later : readSitesWithin total fuel behind =
                      readSitesWithin total fuel' behind :=
                    inductionHypothesis (by omega) (by omega)
                  simp only [later]
              | none =>
                  have shorter := afterSkipped_shorter head rest
                  exact inductionHypothesis (by omega) (by omega)

def sitesFrom (total : Nat) (text : Text) : List Site :=
  readSitesWithin total (text.length + 1) text

theorem readSites_eq_sitesFrom (source : Text) : readSites source = sitesFrom source.size source :=
  rfl

/-- Behind trivia there is nothing, or a site, or something that is passed over. -/
theorem sitesFrom_eq (total : Nat) (text : Text) :
    sitesFrom total text =
      match skipTrivia text with
      | [] => []
      | head :: rest =>
        match readSite total (head :: rest) with
        | some (site, behind) => site :: sitesFrom total behind
        | none => sitesFrom total (afterSkipped (head :: rest)) := by
  rw [sitesFrom, readSitesWithin]
  have skipped := (skipTrivia_suffix text).length_le
  cases remaining : skipTrivia text with
  | nil => rfl
  | cons head rest =>
      rw [remaining, List.length_cons] at skipped
      simp only
      cases success : readSite total (head :: rest) with
      | some found =>
          obtain ⟨site, behind⟩ := found
          have shorter := readSite_shorter success
          rw [List.length_cons] at shorter
          have later : readSitesWithin total text.length behind = sitesFrom total behind :=
            readSitesWithin_eq_of_length_lt (by omega) (Nat.lt_succ_self _)
          simp only [later]
      | none =>
          have shorter := afterSkipped_shorter head rest
          exact readSitesWithin_eq_of_length_lt (by omega) (Nat.lt_succ_self _)

theorem sitesFrom_of_readSite {total : Nat} {text behind : Text} {site : Site}
    (start : skipTrivia text = text) (success : readSite total text = some (site, behind)) :
    sitesFrom total text = site :: sitesFrom total behind := by
  rw [sitesFrom_eq, start]
  cases text with
  | nil => simp [readSite, readAttribute] at success
  | cons head rest => simp only [success]

end StyleMacros
