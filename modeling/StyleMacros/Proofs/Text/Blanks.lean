import Mathlib.Data.List.TakeWhile
import StyleMacros.Text.Blank
import StyleMacros.Text.Identifier

/-!
# Blank and solid characters

A character that is no whitespace is called solid here. Identifiers consist of solid characters,
and trimming cuts a text at its outermost solid ones.
-/

set_option autoImplicit false

namespace StyleMacros

/-- Only the characters of the text are tried, although all characters are finitely many. -/
instance {Good : Char → Prop} [DecidablePred Good] (text : Text) :
    Decidable (∀ char ∈ text, Good char) :=
  List.decidableBAll Good text

/-! ## Whitespace and identifiers -/

def whitespaceRanges : List (Nat × Nat) :=
  [(0x9, 0xD), (0x20, 0x20), (0x85, 0x85), (0xA0, 0xA0), (0x1680, 0x1680), (0x2000, 0x200A),
    (0x2028, 0x2029), (0x202F, 0x202F), (0x205F, 0x205F), (0x3000, 0x3000)]

theorem exists_whitespaceRange {char : Char} (blank : isWhitespace char = true) :
    ∃ range ∈ whitespaceRanges, range.1 ≤ char.toNat ∧ char.toNat ≤ range.2 := by
  simp only [isWhitespace, Bool.or_eq_true, Bool.and_eq_true, decide_eq_true_eq] at blank
  simp only [whitespaceRanges, List.mem_cons, List.not_mem_nil, or_false, exists_eq_or_imp,
    exists_eq_left]
  omega

theorem exists_range_of_inRanges {code : Nat} {ranges : List (Nat × Nat)}
    (inside : inRanges code ranges = true) :
    ∃ range ∈ ranges, range.1 ≤ code ∧ code ≤ range.2 := by
  induction ranges with
  | nil => simp [inRanges] at inside
  | cons range rest inductionHypothesis =>
      simp only [inRanges, Bool.and_eq_true, Bool.or_eq_true, decide_eq_true_eq] at inside
      rcases inside with ⟨low, high | later⟩
      · exact ⟨range, List.mem_cons_self, low, high⟩
      · obtain ⟨found, member, bounds⟩ := inductionHypothesis later
        exact ⟨found, List.mem_cons_of_mem range member, bounds⟩

def rangesApart (left right : Nat × Nat) : Bool :=
  Nat.blt left.2 right.1 || Nat.blt right.2 left.1

/-- The ranges of identifier characters and those of whitespace do not meet. -/
theorem identifierRanges_apart_from_whitespaceRanges :
    ∀ range ∈ (0x5F, 0x5F) :: identifierStartRanges ++ identifierContinueRanges,
      whitespaceRanges.all (rangesApart range) = true := by
  decide +kernel

theorem isWhitespace_eq_false_of_isIdentifierContinue {char : Char}
    (continues : isIdentifierContinue char = true) : isWhitespace char = false := by
  have found : ∃ range ∈ (0x5F, 0x5F) :: identifierStartRanges ++ identifierContinueRanges,
      range.1 ≤ char.toNat ∧ char.toNat ≤ range.2 := by
    simp only [isIdentifierContinue, isIdentifierStart, isIdentifierLetter, Bool.or_eq_true,
      decide_eq_true_eq] at continues
    rcases continues with (rfl | starts) | continues
    · exact ⟨(0x5F, 0x5F), by simp, by decide, by decide⟩
    · obtain ⟨range, member, bounds⟩ := exists_range_of_inRanges starts
      exact ⟨range, by simp [member], bounds⟩
    · obtain ⟨range, member, bounds⟩ := exists_range_of_inRanges continues
      exact ⟨range, by simp [member], bounds⟩
  obtain ⟨range, member, low, high⟩ := found
  apply Bool.eq_false_iff.mpr
  intro blank
  obtain ⟨blankRange, blankMember, blankLow, blankHigh⟩ :=
    exists_whitespaceRange blank
  have apart := List.all_eq_true.mp
    (identifierRanges_apart_from_whitespaceRanges range member) blankRange blankMember
  simp only [rangesApart, Bool.or_eq_true, Nat.blt_eq] at apart
  omega

namespace Text

theorem exists_solid_end_of_identifier? {text name rest : Text}
    (success : identifier? text = some (name, rest)) :
    ∃ front last, name = front ++ [last] ∧ isWhitespace last = false := by
  cases text with
  | nil => simp [identifier?] at success
  | cons head tail =>
      simp only [identifier?] at success
      split at success
      · rename_i starts
        cases Option.some.inj success
        have continues : ∀ char ∈ head :: tail.takeWhile isIdentifierContinue,
            isIdentifierContinue char = true := by
          intro char member
          rcases List.mem_cons.mp member with rfl | member
          · exact isIdentifierContinue_of_isIdentifierStart char starts
          · exact List.mem_takeWhile_imp member
        refine ⟨_, _, (List.dropLast_concat_getLast (List.cons_ne_nil _ _)).symm, ?_⟩
        exact isWhitespace_eq_false_of_isIdentifierContinue
          (continues _ (List.getLast_mem (List.cons_ne_nil _ _)))
      · simp at success

/-! ## Trimming -/

theorem dropWhile_cases (predicate : Char → Bool) (text : Text) :
    text.dropWhile predicate = [] ∨
      ∃ first rest, text.dropWhile predicate = first :: rest ∧ predicate first = false := by
  have head := List.head?_dropWhile_not predicate text
  cases remaining : text.dropWhile predicate with
  | nil => exact .inl rfl
  | cons first rest =>
      rw [remaining] at head
      exact .inr ⟨first, rest, rfl, by simpa using head⟩

theorem exists_blanks_of_trimEnd (text : Text) :
    ∃ blanks, text = trimEnd text ++ blanks ∧ ∀ char ∈ blanks, isWhitespace char = true := by
  refine ⟨(text.reverse.takeWhile isWhitespace).reverse, ?_, ?_⟩
  · rw [trimEnd, ← List.reverse_append, List.takeWhile_append_dropWhile, List.reverse_reverse]
  · intro char member
    exact List.mem_takeWhile_imp (List.mem_reverse.mp member)

theorem exists_solid_end_of_trimEnd {text : Text} (nonempty : trimEnd text ≠ []) :
    ∃ front last, trimEnd text = front ++ [last] ∧ isWhitespace last = false := by
  rw [trimEnd] at nonempty ⊢
  rcases dropWhile_cases isWhitespace text.reverse with none | ⟨last, others, exact, solid⟩
  · simp [none] at nonempty
  · exact ⟨others.reverse, last, by simp [exact], solid⟩

end Text

end StyleMacros
