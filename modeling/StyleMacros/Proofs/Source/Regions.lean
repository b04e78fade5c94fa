import Mathlib.Data.List.Basic
import StyleMacros.Source.Trivia

/-!
# What a region leaves

Whatever is read from the head of a text leaves an end part of it: nothing is put in front and
nothing is taken from the end. The facts here carry this from the pieces of a region to its
content, to its closing mark, and to trivia.
-/

set_option autoImplicit false

namespace StyleMacros

namespace Text

theorem append_of_after? {lead text rest : Text} (success : after? lead text = some rest) :
    lead ++ rest = text :=
  List.isPrefixOf?_eq_some_iff_append_eq.mp success

theorem suffix_of_after? {lead text rest : Text} (success : after? lead text = some rest) :
    rest <:+ text :=
  ⟨lead, append_of_after? success⟩

end Text

namespace Region

/-! ## Openings -/

def OpensAtHead (find : Text → List (Region × Text)) : Prop :=
  ∀ text opened, opened ∈ find text → opened.2 <:+ text

/-- What stands behind the only opening that was found, at its mark. -/
theorem suffix_of_mem_singleton {region : Region} {rest : Text} {opened : Region × Text}
    (mark : Text) (member : opened ∈ [(region, rest)]) : opened.2 <:+ mark ++ rest := by
  rw [List.mem_singleton.mp member]
  exact List.suffix_append mark rest

theorem quoteOpenings_opensAtHead : OpensAtHead quoteOpenings := by
  intro text opened member
  unfold quoteOpenings at member
  split at member
  · rename_i rest
    simp only [List.mem_cons, List.not_mem_nil, or_false] at member
    rcases member with rfl | rfl
    · exact ⟨['"', '"', '"'], rfl⟩
    · exact ⟨['"'], rfl⟩
  · exact suffix_of_mem_singleton ['"'] member
  · exact absurd member List.not_mem_nil

theorem commentOpenings_opensAtHead : OpensAtHead commentOpenings := by
  intro text opened member
  unfold commentOpenings at member
  split at member
  · exact suffix_of_mem_singleton ['/', '*'] member
  · exact absurd member List.not_mem_nil

theorem interpolationOpenings_opensAtHead : OpensAtHead interpolationOpenings := by
  intro text opened member
  unfold interpolationOpenings at member
  split at member
  · exact suffix_of_mem_singleton ['\\', '('] member
  · exact absurd member List.not_mem_nil

theorem roundOpenings_opensAtHead : OpensAtHead roundOpenings := by
  intro text opened member
  unfold roundOpenings at member
  split at member
  · exact suffix_of_mem_singleton ['('] member
  · exact absurd member List.not_mem_nil

theorem squareOpenings_opensAtHead : OpensAtHead squareOpenings := by
  intro text opened member
  unfold squareOpenings at member
  split at member
  · exact suffix_of_mem_singleton ['['] member
  · exact absurd member List.not_mem_nil

theorem curlyOpenings_opensAtHead : OpensAtHead curlyOpenings := by
  intro text opened member
  unfold curlyOpenings at member
  split at member
  · exact suffix_of_mem_singleton ['\x7b'] member
  · exact absurd member List.not_mem_nil

theorem angleOpenings_opensAtHead : OpensAtHead angleOpenings := by
  intro text opened member
  unfold angleOpenings at member
  split at member
  · exact suffix_of_mem_singleton ['<'] member
  · exact absurd member List.not_mem_nil

theorem OpensAtHead.append {first second : Text → List (Region × Text)}
    (left : OpensAtHead first) (right : OpensAtHead second) :
    OpensAtHead (fun text => first text ++ second text) := by
  intro text opened member
  rcases List.mem_append.mp member with member | member
  · exact left text opened member
  · exact right text opened member

theorem openings_opensAtHead (region : Region) : OpensAtHead region.openings := by
  have bracketed : OpensAtHead (fun text => quoteOpenings text ++ commentOpenings text ++
      roundOpenings text ++ squareOpenings text ++ curlyOpenings text) :=
    (((quoteOpenings_opensAtHead.append commentOpenings_opensAtHead).append
      roundOpenings_opensAtHead).append squareOpenings_opensAtHead).append
      curlyOpenings_opensAtHead
  cases region with
  | comment => exact commentOpenings_opensAtHead
  | literal => exact interpolationOpenings_opensAtHead
  | multiline => intro text opened member; simp [openings] at member
  | interpolation => exact quoteOpenings_opensAtHead.append roundOpenings_opensAtHead
  | round => exact bracketed
  | square => exact bracketed
  | curly => exact bracketed
  | angle => exact angleOpenings_opensAtHead
  | body =>
      exact (quoteOpenings_opensAtHead.append commentOpenings_opensAtHead).append
        curlyOpenings_opensAtHead
  | value =>
      exact ((roundOpenings_opensAtHead.append squareOpenings_opensAtHead).append
        curlyOpenings_opensAtHead).append quoteOpenings_opensAtHead
  | constraint =>
      exact (angleOpenings_opensAtHead.append roundOpenings_opensAtHead).append
        squareOpenings_opensAtHead
  | requirements =>
      exact (roundOpenings_opensAtHead.append squareOpenings_opensAtHead).append
        angleOpenings_opensAtHead

/-! ## Plain pieces -/

theorem otherThan_suffix {stops : List Char} {text rest : Text}
    (success : otherThan stops text = some rest) : rest <:+ text := by
  cases text with
  | nil => simp [otherThan] at success
  | cons head tail =>
      simp only [otherThan] at success
      split at success
      · simp at success
      · have same : tail = rest := Option.some.inj success
        exact same ▸ List.suffix_cons head tail

theorem afterLine_suffix (text : Text) : afterLine text <:+ text :=
  List.dropWhile_suffix _

theorem lineCommentOr_suffix {stops : List Char} {text rest : Text}
    (success : lineCommentOr stops text = some rest) : rest <:+ text := by
  unfold lineCommentOr at success
  split at success
  · cases Option.some.inj success
    exact (afterLine_suffix _).trans ⟨['/', '/'], rfl⟩
  · exact otherThan_suffix success

theorem escapeOr_suffix {stops : List Char} {text rest : Text}
    (success : escapeOr stops text = some rest) : rest <:+ text := by
  unfold escapeOr at success
  split at success
  · rename_i escaped _
    cases Option.some.inj success
    exact ⟨['\\', escaped], rfl⟩
  · exact otherThan_suffix success

theorem arrowOr_suffix {stops : List Char} {text rest : Text}
    (success : arrowOr stops text = some rest) : rest <:+ text := by
  unfold arrowOr at success
  split at success
  · cases Option.some.inj success
    exact ⟨['-', '>'], rfl⟩
  · exact otherThan_suffix success

theorem plain_suffix {region : Region} {text rest : Text}
    (success : region.plain text = some rest) : rest <:+ text := by
  cases region with
  | comment =>
      simp only [plain] at success
      split at success
      · simp at success
      · exact otherThan_suffix success
  | literal => exact escapeOr_suffix success
  | multiline =>
      simp only [plain] at success
      split at success
      · simp at success
      · exact escapeOr_suffix success
  | interpolation => exact otherThan_suffix success
  | round => exact lineCommentOr_suffix success
  | square => exact lineCommentOr_suffix success
  | curly => exact lineCommentOr_suffix success
  | angle => exact arrowOr_suffix success
  | body => exact lineCommentOr_suffix success
  | value => exact otherThan_suffix success
  | constraint => exact arrowOr_suffix success
  | requirements => exact otherThan_suffix success

/-! ## Content and closing -/

theorem append_of_afterClosing {region : Region} {text rest : Text}
    (success : region.afterClosing text = some rest) :
    ∃ mark, region.closing = some mark ∧ mark ++ rest = text := by
  obtain ⟨mark, found, after⟩ := Option.bind_eq_some_iff.mp success
  exact ⟨mark, found, Text.append_of_after? after⟩

theorem afterClosing_suffix {region : Region} {text rest : Text}
    (success : region.afterClosing text = some rest) : rest <:+ text := by
  obtain ⟨mark, _, split⟩ := append_of_afterClosing success
  exact ⟨mark, split⟩

theorem contentWithin_suffix (fuel : Nat) (region : Region) (text : Text) :
    contentWithin fuel region text <:+ text := by
  -- an inner region spends the same fuel, so the induction covers it as well as what follows it
  induction fuel generalizing region text with
  | zero => exact List.suffix_refl text
  | succ fuel inductionHypothesis =>
      rw [contentWithin]
      split
      · rename_i rest found
        obtain ⟨opened, member, closes⟩ := List.exists_of_findSome?_eq_some found
        have inner : rest <:+ text :=
          ((afterClosing_suffix closes).trans (inductionHypothesis opened.1 opened.2)).trans
            (openings_opensAtHead region text opened member)
        exact (inductionHypothesis region rest).trans inner
      · split
        · rename_i rest found
          exact (inductionHypothesis region rest).trans (plain_suffix found)
        · exact List.suffix_refl text

theorem afterContent_suffix (region : Region) (text : Text) : region.afterContent text <:+ text :=
  contentWithin_suffix text.length region text

theorem finish?_suffix {region : Region} {text rest : Text}
    (success : region.finish? text = some rest) : rest <:+ text :=
  (afterClosing_suffix success).trans (afterContent_suffix region text)

theorem findSome?_finish?_suffix {find : Text → List (Region × Text)} {text rest : Text}
    (opens : OpensAtHead find)
    (success : (find text).findSome? (fun opened => opened.1.finish? opened.2) = some rest) :
    rest <:+ text := by
  obtain ⟨opened, member, closes⟩ := List.exists_of_findSome?_eq_some success
  exact (finish?_suffix closes).trans (opens text opened member)

end Region

/-! ## Trivia -/

theorem skipTriviaWithin_suffix (fuel : Nat) (text : Text) :
    skipTriviaWithin fuel text <:+ text := by
  induction fuel generalizing text with
  | zero => exact List.suffix_refl text
  | succ fuel inductionHypothesis =>
      cases text with
      | nil => exact List.suffix_refl []
      | cons head rest =>
          simp only [skipTriviaWithin]
          split
          · exact (inductionHypothesis rest).trans (List.suffix_cons head rest)
          · split
            · rename_i comment _
              exact ((inductionHypothesis _).trans (Region.afterLine_suffix comment)).trans
                ⟨['/', '/'], rfl⟩
            · split
              · rename_i behind closes
                exact ((inductionHypothesis behind).trans (Region.finish?_suffix closes)).trans
                  ⟨['/', '*'], rfl⟩
              · exact List.suffix_refl _
            · exact List.suffix_refl _

theorem skipTrivia_suffix (text : Text) : skipTrivia text <:+ text :=
  skipTriviaWithin_suffix text.length text

end StyleMacros
