import StyleMacros.Proofs.Text.Blanks

/-!
# Words at the head of a text

An identifier with a text behind it that does not go on with it is read back whole. Identifiers
have no punctuation in them and no whitespace at their ends.
-/

set_option autoImplicit false

namespace StyleMacros

theorem ne_of_isIdentifierContinue {char mark : Char} (continues : isIdentifierContinue char = true)
    (apart : isIdentifierContinue mark = false) : char ≠ mark := by
  rintro rfl
  rw [apart] at continues
  exact Bool.false_ne_true continues

def punctuation : List Char :=
  [' ', '\t', '\n', '\r', '.', ',', ':', '<', '>', '(', ')', '[', ']', '\x7b', '\x7d', '-', '@', '~',
    '"', '/', '&', '?', '!']

theorem notMem_punctuation_of_isIdentifierContinue {char : Char}
    (continues : isIdentifierContinue char = true) : char ∉ punctuation := by
  have apart : ∀ mark ∈ punctuation, isIdentifierContinue mark = false := by decide +kernel
  intro member
  exact ne_of_isIdentifierContinue continues (apart char member) rfl

namespace Text

/-- The text does not go on with a word that stands in front of it. -/
def EndsWord (text : Text) : Prop :=
  ∀ char, text.head? = some char → isIdentifierContinue char = false

theorem endsWord_of_punctuation {mark : Char} (member : mark ∈ punctuation) (rest : Text) :
    EndsWord (mark :: rest) := by
  intro char first
  cases Option.some.inj first
  exact Bool.eq_false_iff.mpr fun continues =>
    notMem_punctuation_of_isIdentifierContinue continues member

theorem isIdentifierContinue_of_mem {name : Text} (word : name.isIdentifier = true) {char : Char}
    (member : char ∈ name) : isIdentifierContinue char = true := by
  cases name with
  | nil => simp at member
  | cons head rest =>
      simp only [isIdentifier, Bool.and_eq_true, List.all_eq_true] at word
      rcases List.mem_cons.mp member with rfl | later
      · exact isIdentifierContinue_of_isIdentifierStart char word.1
      · exact word.2 char later

theorem isIdentifier_append {name suffix : Text} (word : name.isIdentifier = true)
    (continues : ∀ char ∈ suffix, isIdentifierContinue char = true) :
    (name ++ suffix).isIdentifier = true := by
  cases name with
  | nil => cases word
  | cons head rest =>
      simp only [isIdentifier, Bool.and_eq_true, List.all_eq_true] at word
      simp only [List.cons_append, isIdentifier, Bool.and_eq_true, List.all_eq_true]
      refine ⟨word.1, fun char member => ?_⟩
      exact (List.mem_append.mp member).elim (word.2 char) (continues char)

theorem takeWhile_append_of_endsWord {words rest : Text}
    (continues : ∀ char ∈ words, isIdentifierContinue char = true) (ends : EndsWord rest) :
    (words ++ rest).takeWhile isIdentifierContinue = words := by
  rw [List.takeWhile_append_of_pos continues]
  cases rest with
  | nil => simp
  | cons head others => simp [ends head rfl]

theorem dropWhile_append_of_endsWord {words rest : Text}
    (continues : ∀ char ∈ words, isIdentifierContinue char = true) (ends : EndsWord rest) :
    (words ++ rest).dropWhile isIdentifierContinue = rest := by
  rw [List.dropWhile_append_of_pos continues]
  cases rest with
  | nil => rfl
  | cons head others => simp [ends head rfl]

/-- A whole identifier is read back from in front of what does not go on with it. -/
theorem identifier?_append {name rest : Text} (word : name.isIdentifier = true)
    (ends : EndsWord rest) : identifier? (name ++ rest) = some (name, rest) := by
  cases name with
  | nil => simp [isIdentifier] at word
  | cons head others =>
      simp only [isIdentifier, Bool.and_eq_true, List.all_eq_true] at word
      rw [List.cons_append, identifier?, if_pos word.1,
        takeWhile_append_of_endsWord word.2 ends, dropWhile_append_of_endsWord word.2 ends]

theorem afterWord?_append {word rest : Text} (whole : word.isIdentifier = true)
    (ends : EndsWord rest) : afterWord? (word ++ rest) word = some rest := by
  simp only [afterWord?, identifier?_append whole ends, if_true]

theorem trim_of_solid {text : Text} (solid : ∀ char ∈ text, isWhitespace char = false) :
    trim text = text := by
  have kept (run : Text) (plain : ∀ char ∈ run, isWhitespace char = false) :
      run.dropWhile isWhitespace = run := by
    cases run with
    | nil => rfl
    | cons head rest => simp [plain head List.mem_cons_self]
  rw [trim, trimStart, trimEnd, kept text solid, kept text.reverse, List.reverse_reverse]
  intro char member
  exact solid char (List.mem_reverse.mp member)

theorem trimEnd_append_blanks {blanks : Text} (blank : ∀ char ∈ blanks, isWhitespace char = true)
    (text : Text) : trimEnd (text ++ blanks) = trimEnd text := by
  rw [trimEnd, List.reverse_append, List.dropWhile_append_of_pos, trimEnd]
  exact fun char member => blank char (List.mem_reverse.mp member)

theorem trimEnd_trimEnd (text : Text) : trimEnd (trimEnd text) = trimEnd text := by
  obtain ⟨blanks, split, blank⟩ := exists_blanks_of_trimEnd text
  rw [← trimEnd_append_blanks blank (trimEnd text), ← split]

end Text

end StyleMacros
