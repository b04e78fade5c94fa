import StyleMacros.Code.Layout
import StyleMacros.Proofs.Text.LetterCase
import StyleMacros.Proofs.Text.Pieces

/-!
# Texts without marks

A calm text holds nothing that begins an attribute, a string or a comment. A name holds no bracket
and no line break either, and keeps it so when its first letter changes its case.
-/

set_option autoImplicit false

namespace StyleMacros

def openingMarks : List Char :=
  ['@', '"', '/']

def codeMarks : List Char :=
  openingMarks ++ ['(', ')', '[', ']', '\x7b', '\x7d', '\n', '\r']

/-! ## Letter case -/

/-- No run reaches a mark, and no expansion has one. -/
theorem lowercaseRuns_apart_from_punctuation : ∀ run ∈ lowercaseRuns, ∀ mark ∈ punctuation,
    mark.toNat < run.target ∨ run.target + (run.last - run.first) < mark.toNat := by
  decide +kernel

theorem lowercaseExpansions_apart_from_punctuation :
    ∀ expansion ∈ lowercaseExpansions, ∀ image ∈ expansion.2,
      ∀ mark ∈ punctuation, image ≠ mark.toNat := by
  decide +kernel

theorem eq_of_mark_mem_lowercase {head mark : Char} (marks : mark ∈ punctuation)
    (member : mark ∈ lowercase head) : mark = head := by
  have nonzero : ∀ mark ∈ punctuation, mark ≠ '\x00' := by decide
  rcases lowercase_cases head with ⟨run, runMember, low, high, exact⟩ | ⟨codes, listed, exact⟩ | exact
  · rw [exact, List.mem_singleton] at member
    have code := toNat_of_ofNat_eq member.symm (nonzero mark marks)
    have apart := lowercaseRuns_apart_from_punctuation run runMember mark marks
    omega
  · rw [exact] at member
    obtain ⟨code, codeMember, same⟩ := List.mem_map.mp member
    have apart := lowercaseExpansions_apart_from_punctuation _ listed
    exact absurd (toNat_of_ofNat_eq same (nonzero mark marks)) (apart code codeMember mark marks)
  · exact List.mem_singleton.mp (exact ▸ member)

namespace Text

/-! ## Names -/

def Markless (text : Text) : Prop :=
  ∀ char ∈ text, char ∉ codeMarks

instance (text : Text) : Decidable text.Markless :=
  inferInstanceAs (Decidable (∀ char ∈ text, char ∉ codeMarks))

theorem mem_punctuation_of_mem_codeMarks : ∀ char ∈ codeMarks, char ∈ punctuation := by
  decide

theorem notMem_codeMarks_of_isIdentifierContinue {char : Char}
    (continues : isIdentifierContinue char = true) : char ∉ codeMarks := fun mark =>
  notMem_punctuation_of_isIdentifierContinue continues (mem_punctuation_of_mem_codeMarks char mark)

theorem markless_of_isIdentifier {name : Text} (word : name.isIdentifier = true) : name.Markless :=
  fun _ member =>
    notMem_codeMarks_of_isIdentifierContinue (isIdentifierContinue_of_mem word member)

theorem Markless.append {left right : Text} (first : left.Markless) (second : right.Markless) :
    (left ++ right).Markless := by
  intro char member
  rcases List.mem_append.mp member with member | member
  · exact first char member
  · exact second char member

theorem notMem_lowerFirst {mark : Char} (listed : mark ∈ punctuation) {name : Text}
    (absent : mark ∉ name) : mark ∉ name.lowerFirst := by
  cases name with
  | nil => exact absent
  | cons head rest =>
      rw [List.mem_cons, not_or] at absent
      intro member
      rcases List.mem_append.mp member with image | later
      · exact absent.1 (eq_of_mark_mem_lowercase listed image)
      · exact absent.2 later

theorem Markless.lowerFirst {name : Text} (plain : name.Markless) : name.lowerFirst.Markless :=
  fun char member mark => notMem_lowerFirst (mem_punctuation_of_mem_codeMarks char mark)
    (fun inside => plain char inside mark) member

/-! ## Calm texts -/

def Calm (text : Text) : Prop :=
  ∀ char ∈ text, char ∉ openingMarks

/-- Code points are compared faster than characters. -/
theorem calm_iff_codes {text : Text} : text.Calm ↔ (text.all fun char =>
    (openingMarks.map Char.toNat).all fun code => code != char.toNat) = true := by
  simp only [Calm, List.all_eq_true, List.mem_map, bne_iff_ne, forall_exists_index, and_imp,
    forall_apply_eq_imp_iff₂, ne_eq, Char.toNat_inj]
  constructor
  · intro calm char member mark markMember same
    exact calm char member (same ▸ markMember)
  · intro apart char member mark
    exact apart char member char mark rfl

instance (text : Text) : Decidable text.Calm :=
  decidable_of_iff _ calm_iff_codes.symm

theorem calm_literal {chars : List Char} (calm : Calm chars) : Calm (String.ofList chars).toList := by
  rwa [String.toList_ofList]

theorem Markless.calm {text : Text} (plain : text.Markless) : text.Calm :=
  fun char member mark => plain char member (List.mem_append_left _ mark)

@[simp] theorem calm_append {left right : Text} :
    Calm (left ++ right) ↔ left.Calm ∧ right.Calm := by
  simp only [Calm, List.mem_append, or_imp, forall_and]

theorem calm_flatten {texts : List Text} (each : ∀ text ∈ texts, text.Calm) :
    Calm texts.flatten := by
  intro char member
  obtain ⟨text, textMember, inside⟩ := List.mem_flatten.mp member
  exact each text textMember char inside

theorem join_induction {Good : Text → Prop} {separator : Text} {pieces : List Text}
    (empty : Good []) (append : ∀ left right, Good left → Good right → Good (left ++ right))
    (between : Good separator) (each : ∀ piece ∈ pieces, Good piece) :
    Good (join separator pieces) := by
  induction pieces with
  | nil => exact empty
  | cons first others inductionHypothesis =>
      have head := each first List.mem_cons_self
      have tail := inductionHypothesis fun piece member => each piece (List.mem_cons_of_mem _ member)
      cases others with
      | nil =>
          have alone : join separator [first] = first := by simp [join, List.intercalate]
          rwa [alone]
      | cons second others =>
          have joined : join separator (first :: second :: others) =
              first ++ (separator ++ join separator (second :: others)) := by
            simp [join, List.intercalate]
          rw [joined]
          exact append _ _ head (append _ _ between tail)

theorem calm_join {separator : Text} {pieces : List Text} (between : separator.Calm)
    (each : ∀ piece ∈ pieces, piece.Calm) : Calm (join separator pieces) :=
  join_induction (by decide) (fun _ _ left right => calm_append.mpr ⟨left, right⟩) between each

/-! ## Lines -/

theorem mem_of_mem_withoutReturn {char : Char} {line : Text}
    (member : char ∈ withoutReturn line) : char ∈ line := by
  unfold withoutReturn at member
  split at member
  · exact List.dropLast_subset line member
  · exact member

theorem mem_of_mem_lines {char : Char} {text line : Text} (member : line ∈ lines text)
    (inside : char ∈ line) : char ∈ text := by
  have closed {earlier : List Text} (pieces : ∀ piece ∈ earlier, piece ∈ splitOn '\n' text)
      (member : line ∈ earlier.reverse.map withoutReturn) : char ∈ text := by
    obtain ⟨piece, pieceMember, rfl⟩ := List.mem_map.mp member
    exact mem_of_mem_splitOn (pieces piece (List.mem_reverse.mp pieceMember))
      (mem_of_mem_withoutReturn inside)
  unfold lines at member
  split at member
  · cases member
  · rename_i last earlier reversed
    have pieces : ∀ piece ∈ last :: earlier, piece ∈ splitOn '\n' text := by
      intro piece member
      exact List.mem_reverse.mp (reversed ▸ member)
    have earlierPieces := fun piece member => pieces piece (List.mem_cons_of_mem last member)
    simp only at member
    split at member
    · exact closed earlierPieces member
    · rcases List.mem_append.mp member with member | member
      · exact closed earlierPieces member
      · cases List.mem_singleton.mp member
        exact mem_of_mem_splitOn (pieces line List.mem_cons_self) inside

theorem lines_of_notMem {text : Text} (single : '\n' ∉ text) :
    ∀ line ∈ lines text, line = text := by
  intro line member
  rw [lines, splitOn_of_notMem single] at member
  simp only [List.reverse_singleton, List.reverse_nil, List.map_nil, List.nil_append] at member
  split at member
  · cases member
  · exact List.mem_singleton.mp member

end Text

end StyleMacros
