import StyleMacros.Text.Basic

/-!
# Pieces between separators

A text comes apart at every separator: the pieces of two texts with a separator between them are
the pieces of both, and no piece has a separator in it.
-/

set_option autoImplicit false

namespace StyleMacros.Text

variable {separator : Char} {text : Text}

theorem splitOn_ne_nil (separator : Char) (text : Text) : splitOn separator text ≠ [] := by
  cases text with
  | nil => exact List.cons_ne_nil _ _
  | cons head rest =>
      rw [splitOn]
      split
      · exact List.cons_ne_nil _ _
      · split <;> exact List.cons_ne_nil _ _

theorem splitOn_append_separator (front back : Text) :
    splitOn separator (front ++ separator :: back) =
      splitOn separator front ++ splitOn separator back := by
  induction front with
  | nil =>
      rw [List.nil_append, splitOn]
      exact if_pos rfl
  | cons head rest inductionHypothesis =>
      rw [List.cons_append, splitOn, splitOn, inductionHypothesis]
      split
      · rfl
      · cases pieces : splitOn separator rest with
        | nil => exact absurd pieces (splitOn_ne_nil separator rest)
        | cons first others => rfl

theorem splitOn_of_notMem (none : separator ∉ text) : splitOn separator text = [text] := by
  induction text with
  | nil => rfl
  | cons head rest inductionHypothesis =>
      rw [List.mem_cons, not_or] at none
      rw [splitOn, if_neg (Ne.symm none.1), inductionHypothesis none.2]

theorem splitOn_concat (front : Text) :
    splitOn separator (front ++ [separator]) = splitOn separator front ++ [[]] :=
  splitOn_append_separator front []

theorem splitOn_append_cons {front : Text} (none : separator ∉ front) (rest : Text) :
    splitOn separator (front ++ separator :: rest) = front :: splitOn separator rest := by
  rw [splitOn_append_separator, splitOn_of_notMem none, List.singleton_append]

theorem mem_of_mem_splitOn {char : Char} {piece : Text}
    (member : piece ∈ splitOn separator text) (inside : char ∈ piece) : char ∈ text := by
  induction text generalizing piece with
  | nil =>
      cases List.mem_singleton.mp member
      cases inside
  | cons head rest inductionHypothesis =>
      rw [splitOn] at member
      split at member
      · rcases List.mem_cons.mp member with rfl | member
        · cases inside
        · exact List.mem_cons_of_mem head (inductionHypothesis member inside)
      · split at member
        · cases List.mem_singleton.mp member
          cases List.mem_singleton.mp inside
          exact List.mem_cons_self
        · rename_i first others split
          rw [split] at inductionHypothesis
          rcases List.mem_cons.mp member with rfl | member
          · rcases List.mem_cons.mp inside with rfl | inside
            · exact List.mem_cons_self
            · exact List.mem_cons_of_mem head (inductionHypothesis List.mem_cons_self inside)
          · exact List.mem_cons_of_mem head
              (inductionHypothesis (List.mem_cons_of_mem first member) inside)

/-! ## The last piece -/

theorem exists_last_separator (member : separator ∈ text) :
    ∃ front back, text = front ++ separator :: back ∧ separator ∉ back := by
  obtain ⟨back, front, same, none⟩ :=
    List.eq_append_cons_of_mem (List.mem_reverse.mpr member)
  refine ⟨front.reverse, back.reverse, ?_, fun inside => none (List.mem_reverse.mp inside)⟩
  rw [← List.reverse_reverse text, same]
  simp

def lastPiece (separator : Char) (text : Text) : Text :=
  (splitOn separator text).getLastD []

theorem lastPiece_of_notMem (none : separator ∉ text) : lastPiece separator text = text := by
  rw [lastPiece, splitOn_of_notMem none]
  rfl

theorem lastPiece_append_separator (front back : Text) :
    lastPiece separator (front ++ separator :: back) = lastPiece separator back := by
  rw [lastPiece, splitOn_append_separator, List.getLastD_eq_getLast?, List.getLast?_append,
    List.getLast?_eq_some_getLast (splitOn_ne_nil separator back), lastPiece,
    List.getLastD_eq_getLast?, List.getLast?_eq_some_getLast (splitOn_ne_nil separator back)]
  rfl

theorem lastPiece_append {back : Text} (none : separator ∉ back) (front : Text) :
    lastPiece separator (front ++ back) = lastPiece separator front ++ back := by
  by_cases member : separator ∈ front
  · obtain ⟨early, late, rfl, absent⟩ := exists_last_separator member
    rw [List.append_assoc, List.cons_append, lastPiece_append_separator,
      lastPiece_append_separator, lastPiece_of_notMem absent, lastPiece_of_notMem]
    simp [absent, none]
  · rw [lastPiece_of_notMem member, lastPiece_of_notMem (by simp [member, none])]

theorem splitOn_eq_append_lastPiece (separator : Char) (text : Text) :
    splitOn separator text =
      (splitOn separator text).dropLast ++ [lastPiece separator text] := by
  have parts := List.dropLast_concat_getLast (splitOn_ne_nil separator text)
  rw [lastPiece, List.getLastD_eq_getLast?,
    List.getLast?_eq_some_getLast (splitOn_ne_nil separator text)]
  exact parts.symm

theorem lastPiece_mem (separator : Char) (text : Text) :
    lastPiece separator text ∈ splitOn separator text := by
  rw [splitOn_eq_append_lastPiece]
  exact List.mem_append_right _ List.mem_cons_self

theorem separator_notMem_of_mem_splitOn {piece : Text}
    (member : piece ∈ splitOn separator text) : separator ∉ piece := by
  induction text generalizing piece with
  | nil =>
      cases List.mem_singleton.mp member
      exact List.not_mem_nil
  | cons head rest inductionHypothesis =>
      rw [splitOn] at member
      split at member
      · rcases List.mem_cons.mp member with rfl | member
        · exact List.not_mem_nil
        · exact inductionHypothesis member
      · rename_i other
        split at member
        · cases List.mem_singleton.mp member
          simpa using Ne.symm other
        · rename_i first others split
          rw [split] at inductionHypothesis
          rcases List.mem_cons.mp member with rfl | member
          · simpa [Ne.symm other] using inductionHypothesis List.mem_cons_self
          · exact inductionHypothesis (List.mem_cons_of_mem first member)

theorem join_splitOn (separator : Char) (text : Text) :
    join [separator] (splitOn separator text) = text := by
  induction text with
  | nil => rfl
  | cons head rest inductionHypothesis =>
      rw [splitOn]
      cases pieces : splitOn separator rest with
      | nil => exact absurd pieces (splitOn_ne_nil separator rest)
      | cons first others =>
          rw [pieces] at inductionHypothesis
          have started (front : Text) :
              join [separator] ((front ++ first) :: others) = front ++ rest := by
            rw [← inductionHypothesis]
            cases others <;> simp [join, List.intercalate]
          split
          · rename_i same
            have opened : join [separator] ([] :: first :: others) =
                separator :: join [separator] (first :: others) := by
              simp [join, List.intercalate]
            rw [opened, inductionHypothesis, same]
          · exact started [head]

/-! ## Joined pieces -/

@[simp] theorem join_singleton (separator piece : Text) : join separator [piece] = piece := by
  simp [join, List.intercalate]

theorem join_cons_cons (separator first second : Text) (others : List Text) :
    join separator (first :: second :: others) =
      first ++ (separator ++ join separator (second :: others)) := by
  simp [join, List.intercalate]

theorem exists_join_cons (separator first : Text) (others : List Text) :
    ∃ rest, join separator (first :: others) = first ++ rest := by
  cases others with
  | nil => exact ⟨[], by rw [join_singleton, List.append_nil]⟩
  | cons second others => exact ⟨_, join_cons_cons separator first second others⟩

theorem join_concat (separator last : Text) {front : List Text} (nonempty : front ≠ []) :
    join separator (front ++ [last]) = join separator front ++ (separator ++ last) := by
  induction front with
  | nil => exact absurd rfl nonempty
  | cons first others inductionHypothesis =>
      cases others with
      | nil => rw [List.singleton_append, join_cons_cons, join_singleton, join_singleton]
      | cons second others =>
          have later := inductionHypothesis (List.cons_ne_nil second others)
          rw [List.cons_append] at later
          rw [List.cons_append, List.cons_append, join_cons_cons, join_cons_cons, later]
          simp only [List.append_assoc]

theorem splitOn_join_of_plain {first : Text} {others : List Text}
    (plain : ∀ piece ∈ first :: others, separator ∉ piece) :
    splitOn separator (join [separator] (first :: others)) = first :: others := by
  induction others generalizing first with
  | nil => rw [join_singleton, splitOn_of_notMem (plain first List.mem_cons_self)]
  | cons second others inductionHypothesis =>
      have later := inductionHypothesis fun piece member =>
        plain piece (List.mem_cons_of_mem _ member)
      rw [join_cons_cons, List.singleton_append,
        splitOn_append_cons (plain first List.mem_cons_self), later]

end StyleMacros.Text
