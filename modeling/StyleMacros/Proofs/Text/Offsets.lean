import StyleMacros.Text.Basic

/-!
# Offsets into a text

A boundary is an offset at which a text can be cut without cutting a character. What is read
or cut between boundaries is found again as a piece of the text, so that facts about offsets
and facts about the characters between them can be exchanged.
-/

set_option autoImplicit false

namespace StyleMacros.Text

/-- The offset lies between two characters of the text or at one of its ends. -/
def IsBoundary (source : Text) (offset : Nat) : Prop :=
  ∃ front rest, source = front ++ rest ∧ size front = offset

/-- The character `char` starts at the offset. -/
def CharAt (source : Text) (offset : Nat) (char : Char) : Prop :=
  ∃ front rest, source = front ++ char :: rest ∧ size front = offset

def Throughout (source : Text) (start stop : Nat) (predicate : Char → Bool) : Prop :=
  ∀ offset char, CharAt source offset char → start ≤ offset → offset < stop →
    predicate char = true

/-! ## Cutting at a boundary -/

theorem eq_nil_of_size_eq_zero {text : Text} (empty : size text = 0) : text = [] := by
  cases text with
  | nil => rfl
  | cons head rest =>
      have positive := head.utf8Size_pos
      rw [size_cons] at empty
      omega

theorem size_reverse (text : Text) : size text.reverse = size text := by
  induction text with
  | nil => rfl
  | cons head rest inductionHypothesis =>
      rw [List.reverse_cons, size_append, inductionHypothesis, size_cons, size_cons, size_nil]
      omega

theorem dropBytes_size_append (front rest : Text) :
    dropBytes (size front) (front ++ rest) = rest := by
  induction front with
  | nil => cases rest <;> simp [dropBytes]
  | cons head tail inductionHypothesis =>
      have nonzero : head.utf8Size ≠ 0 := Nat.ne_of_gt head.utf8Size_pos
      simp [dropBytes, nonzero, inductionHypothesis]

theorem takeBytes_size_append (front rest : Text) :
    takeBytes (size front) (front ++ rest) = front := by
  have whole := takeBytes_append_dropBytes (size front) (front ++ rest)
  rw [dropBytes_size_append] at whole
  exact List.append_cancel_right whole

theorem slice_append (front inner rest : Text) (start stop : Nat)
    (startExact : start = size front) (stopExact : stop = size front + size inner) :
    slice (front ++ (inner ++ rest)) start stop = inner := by
  subst startExact
  subst stopExact
  rw [slice, dropBytes_size_append, Nat.add_sub_cancel_left, takeBytes_size_append]

theorem exists_middle_of_size_le {front rest front' rest' : Text}
    (same : front ++ rest = front' ++ rest') (before : size front ≤ size front') :
    ∃ middle, front' = front ++ middle ∧ rest = middle ++ rest' := by
  rcases List.append_eq_append_iff.mp same with ⟨middle, later, earlier⟩ | ⟨middle, earlier, later⟩
  · exact ⟨middle, later, earlier⟩
  · have empty : middle = [] := by
      apply eq_nil_of_size_eq_zero
      rw [earlier, size_append] at before
      omega
    subst empty
    exact ⟨[], by simpa using earlier.symm, by simpa using later.symm⟩

/-! ## Boundaries -/

namespace IsBoundary

variable {source : Text} {offset : Nat}

theorem zero (source : Text) : IsBoundary source 0 :=
  ⟨[], source, rfl, rfl⟩

theorem atEnd (source : Text) : IsBoundary source (size source) :=
  ⟨source, [], by simp, rfl⟩

theorem of_append (front rest : Text) : IsBoundary (front ++ rest) (size front) :=
  ⟨front, rest, rfl, rfl⟩

theorem le_size (boundary : IsBoundary source offset) : offset ≤ size source := by
  obtain ⟨front, rest, rfl, rfl⟩ := boundary
  rw [size_append]
  omega

theorem size_dropBytes (boundary : IsBoundary source offset) :
    size (dropBytes offset source) = size source - offset := by
  obtain ⟨front, rest, rfl, rfl⟩ := boundary
  rw [dropBytes_size_append, size_append]
  omega

theorem of_suffix {text : Text} (suffix : text <:+ source) :
    IsBoundary source (size source - size text) := by
  obtain ⟨front, rfl⟩ := suffix
  exact ⟨front, text, rfl, by simp⟩

theorem exists_pieces {start stop : Nat} (first : IsBoundary source start)
    (last : IsBoundary source stop) (ordered : start ≤ stop) :
    ∃ front inner rest, source = front ++ (inner ++ rest) ∧ start = size front ∧
      stop = size front + size inner := by
  obtain ⟨front, behind, rfl, rfl⟩ := first
  obtain ⟨front', rest, same, rfl⟩ := last
  obtain ⟨inner, rfl, rfl⟩ := exists_middle_of_size_le same ordered
  exact ⟨front, inner, rest, rfl, rfl, size_append front inner⟩

theorem dropBytes_eq_slice_append {start stop : Nat} (first : IsBoundary source start)
    (last : IsBoundary source stop) (ordered : start ≤ stop) :
    dropBytes start source = slice source start stop ++ dropBytes stop source := by
  obtain ⟨front, inner, rest, rfl, rfl, rfl⟩ := first.exists_pieces last ordered
  rw [slice_append front inner rest _ _ rfl rfl, dropBytes_size_append, ← List.append_assoc,
    ← size_append, dropBytes_size_append]

theorem size_slice {start stop : Nat} (first : IsBoundary source start)
    (last : IsBoundary source stop) (ordered : start ≤ stop) :
    size (slice source start stop) = stop - start := by
  obtain ⟨front, inner, rest, rfl, rfl, rfl⟩ := first.exists_pieces last ordered
  rw [slice_append front inner rest _ _ rfl rfl]
  omega

end IsBoundary

theorem size_le_of_suffix {text source : Text} (suffix : text <:+ source) :
    size text ≤ size source := by
  obtain ⟨front, rfl⟩ := suffix
  rw [size_append]
  omega

/-- Of two end parts of a text the one that is no larger is an end part of the other. -/
theorem suffix_of_size_le {source text later : Text} (inside : text <:+ source)
    (laterInside : later <:+ source) (small : size later ≤ size text) : later <:+ text := by
  rcases List.suffix_or_suffix_of_suffix laterInside inside with deeper | ⟨front, rfl⟩
  · exact deeper
  · rw [size_append] at small
    have empty : front = [] := eq_nil_of_size_eq_zero (by omega)
    rw [empty]
    exact List.suffix_refl text

theorem length_lt_of_size_lt {source text later : Text} (inside : text <:+ source)
    (laterInside : later <:+ source) (less : size later < size text) :
    later.length < text.length := by
  have deeper := suffix_of_size_le inside laterInside (Nat.le_of_lt less)
  rcases Nat.lt_or_ge later.length text.length with shorter | same
  · exact shorter
  · rw [deeper.eq_of_length_le same] at less
    exact absurd less (Nat.lt_irrefl _)

/-! ## Single characters -/

namespace CharAt

variable {source : Text} {offset : Nat} {char : Char}

theorem boundary (found : CharAt source offset char) : IsBoundary source offset := by
  obtain ⟨front, rest, rfl, rfl⟩ := found
  exact .of_append front (char :: rest)

theorem boundary_behind (found : CharAt source offset char) :
    IsBoundary source (offset + char.utf8Size) := by
  obtain ⟨front, rest, rfl, rfl⟩ := found
  exact ⟨front ++ [char], rest, by simp, by simp⟩

theorem stop_le_of_lt {later : Nat} (found : CharAt source offset char)
    (boundary : IsBoundary source later) (behind : offset < later) :
    offset + char.utf8Size ≤ later := by
  obtain ⟨front, rest, rfl, rfl⟩ := found
  obtain ⟨front', rest', same, rfl⟩ := boundary
  obtain ⟨middle, rfl, split⟩ := exists_middle_of_size_le same (Nat.le_of_lt behind)
  cases middle with
  | nil => simp at behind
  | cons head tail =>
      simp only [List.cons_append, List.cons.injEq] at split
      rw [← split.1, size_append, size_cons]
      omega

theorem lt_size (found : CharAt source offset char) : offset < size source := by
  have positive := char.utf8Size_pos
  have inside := found.boundary_behind.le_size
  omega

theorem char_eq {other : Char} (found : CharAt source offset char)
    (found' : CharAt source offset other) : char = other := by
  obtain ⟨front, rest, rfl, rfl⟩ := found
  obtain ⟨front', rest', same, sizes⟩ := found'
  obtain ⟨middle, grown, split⟩ := exists_middle_of_size_le same (Nat.le_of_eq sizes.symm)
  have empty : middle = [] := by
    apply eq_nil_of_size_eq_zero
    rw [grown, size_append] at sizes
    omega
  subst empty
  simp only [List.nil_append, List.cons.injEq] at split
  exact split.1

end CharAt

theorem IsBoundary.charAt_of_slice {source : Text} {start stop : Nat}
    (first : IsBoundary source start) (last : IsBoundary source stop) (ordered : start ≤ stop)
    {front behind : Text} {char : Char}
    (split : slice source start stop = front ++ char :: behind) :
    CharAt source (start + size front) char := by
  obtain ⟨lead, inner, rest, rfl, rfl, rfl⟩ := first.exists_pieces last ordered
  rw [slice_append lead inner rest _ _ rfl rfl] at split
  exact ⟨lead ++ front, behind ++ rest, by simp [split], size_append lead front⟩

/-! ## Ranges -/

namespace Throughout

variable {source : Text} {start stop : Nat} {predicate : Char → Bool}

theorem of_pieces (front : Text) {inner : Text} (rest : Text)
    (all : ∀ char ∈ inner, predicate char = true) :
    Throughout (front ++ (inner ++ rest)) (size front) (size front + size inner) predicate := by
  intro offset char found low high
  obtain ⟨front', rest', same, rfl⟩ := found
  obtain ⟨middle, rfl, split⟩ := exists_middle_of_size_le same low
  have inside : size middle < size inner := by
    rw [size_append] at high
    omega
  obtain ⟨tail, innerSplit, restSplit⟩ := exists_middle_of_size_le split.symm (Nat.le_of_lt inside)
  cases tail with
  | nil =>
      rw [innerSplit] at inside
      simp at inside
  | cons head tail =>
      simp only [List.cons_append, List.cons.injEq] at restSplit
      apply all
      rw [innerSplit, restSplit.1]
      simp

theorem empty (source : Text) (offset : Nat) (predicate : Char → Bool) :
    Throughout source offset offset predicate := by
  intro place char _found low high
  omega

/-- A character that fails the predicate lies outside the range. -/
theorem outside {offset : Nat} {char : Char} (holds : Throughout source start stop predicate)
    (found : CharAt source offset char) (fails : predicate char = false) :
    offset < start ∨ stop ≤ offset := by
  by_cases low : start ≤ offset
  · right
    apply Nat.le_of_not_lt
    intro high
    rw [holds offset char found low high] at fails
    exact Bool.noConfusion fails
  · exact Or.inl (Nat.lt_of_not_le low)

end Throughout

theorem IsBoundary.mem_slice_iff {source : Text} {start stop : Nat} (first : IsBoundary source start)
    (last : IsBoundary source stop) {char : Char} : char ∈ slice source start stop ↔
      ∃ place, CharAt source place char ∧ start ≤ place ∧ place < stop := by
  rcases Nat.lt_or_ge stop start with reversed | ordered
  · have empty : slice source start stop = [] := by
      rw [slice, Nat.sub_eq_zero_of_le (Nat.le_of_lt reversed)]
      cases dropBytes start source <;> rfl
    rw [empty]
    constructor
    · exact fun member => absurd member List.not_mem_nil
    · rintro ⟨place, -, low, high⟩
      omega
  · constructor
    · intro member
      obtain ⟨front, behind, split⟩ := List.append_of_mem member
      have sizes := first.size_slice last ordered
      have positive := char.utf8Size_pos
      rw [split, size_append, size_cons] at sizes
      exact ⟨_, first.charAt_of_slice last ordered split, by omega, by omega⟩
    · rintro ⟨place, found, low, high⟩
      obtain ⟨front, inner, rest, rfl, rfl, rfl⟩ := first.exists_pieces last ordered
      rw [slice_append front inner rest _ _ rfl rfl]
      have within := Throughout.of_pieces front rest
        (fun char (member : char ∈ inner) => decide_eq_true member) place char found low high
      exact of_decide_eq_true within

end StyleMacros.Text
