import StyleMacros.Proofs.Text.Words
import StyleMacros.Text.LetterCase

/-!
# Letter case and identifiers

The tables of letter case are looked at as a whole: what a character becomes in lower or upper case
starts with a character that stays as it is, and what may begin an identifier begins one in either
case. A text with its first character in either case is therefore not changed by doing it again, and
it is an identifier if it was one.
-/

set_option autoImplicit false

namespace StyleMacros

/-! ## Case mappings -/

theorem CaseRun.image?_eq_some_iff {run : CaseRun} {code image : Nat} :
    run.image? code = some image ↔
      (run.first ≤ code ∧ code ≤ run.last ∧ (code - run.first) % run.step = 0) ∧
        run.target + (code - run.first) = image := by
  unfold image?
  split <;> simp_all

theorem caseImage_cases (expansions : List (Nat × List Nat)) (runs : List CaseRun) (code : Nat) :
    (∃ run ∈ runs, ∃ image, run.image? code = some image ∧
        caseImage expansions runs code = [image]) ∨
      (∃ images, (code, images) ∈ expansions ∧ caseImage expansions runs code = images) ∨
      caseImage expansions runs code = [code] := by
  unfold caseImage
  split
  · rename_i image found
    obtain ⟨run, member, mapped⟩ := List.exists_of_findSome?_eq_some found
    exact .inl ⟨run, member, image, mapped, rfl⟩
  · split
    · rename_i images expanded
      obtain ⟨before, after, table, -⟩ := List.lookup_eq_some_iff.mp expanded
      exact .inr (.inl ⟨images, by simp [table], rfl⟩)
    · exact .inr (.inr rfl)

theorem caseImage_of_untouched {expansions : List (Nat × List Nat)} {runs : List CaseRun}
    {code : Nat} (unmoved : ∀ run ∈ runs, run.image? code = none)
    (unlisted : ∀ expansion ∈ expansions, expansion.1 ≠ code) :
    caseImage expansions runs code = [code] := by
  have none : runs.findSome? (fun run => run.image? code) = none :=
    List.findSome?_eq_none_iff.mpr unmoved
  have absent : expansions.lookup code = Option.none := by
    rw [List.lookup_eq_none_iff]
    intro expansion member
    simpa using (unlisted expansion member).symm
  simp only [caseImage, none, absent]

/-! ## What a mapping leaves alone -/

/-- The other run moves nothing that this run reaches: they lie apart, or the other skips every
second code point and this one reaches only those. -/
def CaseRun.clearOf (run other : CaseRun) : Bool :=
  Nat.blt (run.target + (run.last - run.first)) other.first || Nat.blt other.last run.target ||
    (run.step == 2 || run.first == run.last) && other.step == 2 && run.target % 2 != other.first % 2

theorem CaseRun.image?_eq_none_of_clearOf {run other : CaseRun} (clear : run.clearOf other = true)
    {code image : Nat} (reached : run.image? code = some image) : other.image? image = none := by
  obtain ⟨⟨low, high, step⟩, rfl⟩ := image?_eq_some_iff.mp reached
  simp only [clearOf, Bool.or_eq_true, Bool.and_eq_true, Nat.blt_eq, beq_iff_eq, bne_iff_ne]
    at clear
  by_contra moved
  obtain ⟨again, moved⟩ := Option.ne_none_iff_exists'.mp moved
  obtain ⟨⟨otherLow, otherHigh, otherStep⟩, -⟩ := image?_eq_some_iff.mp moved
  rcases clear with (before | after) | ⟨⟨steps, even⟩, odd⟩
  · omega
  · omega
  · have same : (code - run.first) % 2 = 0 := by
      rcases steps with two | single
      · rwa [two] at step
      · omega
    rw [even] at otherStep
    omega

/-- No code point with which an image begins is moved again. -/
structure CaseSettled (expansions : List (Nat × List Nat)) (runs : List CaseRun) : Prop where
  clear : ∀ run ∈ runs, runs.all run.clearOf = true
  unlisted : ∀ run ∈ runs, ∀ expansion ∈ expansions,
    expansion.1 < run.target ∨ run.target + (run.last - run.first) < expansion.1
  heads : ∀ expansion ∈ expansions, ∃ first ∈ expansion.2.head?,
    caseImage expansions runs first = [first]

theorem CaseSettled.caseImage_head {expansions : List (Nat × List Nat)} {runs : List CaseRun}
    (settled : CaseSettled expansions runs) (code : Nat) :
    ∃ first rest, caseImage expansions runs code = first :: rest ∧
      caseImage expansions runs first = [first] := by
  rcases caseImage_cases expansions runs code with
    ⟨run, member, image, reached, exact⟩ | ⟨images, listed, exact⟩ | exact
  · refine ⟨image, [], exact, caseImage_of_untouched ?_ ?_⟩
    · intro other otherMember
      have clear := List.all_eq_true.mp (settled.clear run member) other otherMember
      exact CaseRun.image?_eq_none_of_clearOf clear reached
    · intro expansion expansionMember
      obtain ⟨⟨low, high, -⟩, rfl⟩ := CaseRun.image?_eq_some_iff.mp reached
      have apart := settled.unlisted run member expansion expansionMember
      omega
  · obtain ⟨first, head, stays⟩ := settled.heads _ listed
    obtain ⟨rest, split⟩ := List.head?_eq_some_iff.mp head
    exact ⟨first, rest, exact.trans split, stays⟩
  · exact ⟨code, [], exact, exact⟩

theorem lowercase_settled : CaseSettled lowercaseExpansions lowercaseRuns where
  clear := by decide +kernel
  unlisted := by decide +kernel
  heads := by decide +kernel

def CaseRun.misses (run : CaseRun) (code : Nat) : Bool :=
  Nat.blt code run.target || Nat.blt (run.target + (run.last - run.first)) code

theorem uppercaseRuns_miss : ∀ run ∈ uppercaseRuns,
    (uppercaseExpansions.all fun expansion => run.misses expansion.1) = true := by
  decide +kernel

theorem uppercase_settled : CaseSettled uppercaseExpansions uppercaseRuns where
  clear := by decide +kernel
  unlisted := by
    intro run member expansion listed
    have missed := List.all_eq_true.mp (uppercaseRuns_miss run member) expansion listed
    simpa only [CaseRun.misses, Bool.or_eq_true, Nat.blt_eq] using missed
  heads := by decide +kernel

/-! ## Lower and upper case -/

theorem toNat_ofNat_of_isValidChar {code : Nat} (valid : code.isValidChar) :
    (Char.ofNat code).toNat = code := by
  rw [Char.ofNat, dif_pos valid]
  rfl

theorem toNat_of_ofNat_eq {code : Nat} {char : Char} (same : Char.ofNat code = char)
    (nonzero : char ≠ '\x00') : code = char.toNat := by
  by_cases valid : code.isValidChar
  · rw [← same, toNat_ofNat_of_isValidChar valid]
  · rw [Char.ofNat, dif_neg valid] at same
    exact absurd same.symm nonzero

/-- A run moves the character, or it has an expansion, or it is its own lower case. -/
theorem lowercase_cases (char : Char) :
    (∃ run ∈ lowercaseRuns, run.first ≤ char.toNat ∧ char.toNat ≤ run.last ∧
        lowercase char = [Char.ofNat (run.target + (char.toNat - run.first))]) ∨
      (∃ codes, (char.toNat, codes) ∈ lowercaseExpansions ∧
        lowercase char = codes.map Char.ofNat) ∨
      lowercase char = [char] := by
  unfold lowercase
  rcases caseImage_cases lowercaseExpansions lowercaseRuns char.toNat with
    ⟨run, member, image, moved, exact⟩ | ⟨codes, listed, exact⟩ | exact
  · obtain ⟨⟨low, high, -⟩, rfl⟩ := CaseRun.image?_eq_some_iff.mp moved
    exact .inl ⟨run, member, low, high, by rw [exact, List.map_singleton]⟩
  · exact .inr (.inl ⟨codes, listed, by rw [exact]⟩)
  · exact .inr (.inr (by rw [exact, List.map_singleton, Char.ofNat_toNat]))

theorem CaseSettled.exists_head {expansions : List (Nat × List Nat)} {runs : List CaseRun}
    (settled : CaseSettled expansions runs) (zero : caseImage expansions runs 0 = [0])
    (char : Char) :
    ∃ first rest, (caseImage expansions runs char.toNat).map Char.ofNat = first :: rest ∧
      (caseImage expansions runs first.toNat).map Char.ofNat = [first] := by
  obtain ⟨code, codes, image, stays⟩ := settled.caseImage_head char.toNat
  refine ⟨Char.ofNat code, codes.map Char.ofNat, by rw [image, List.map_cons], ?_⟩
  -- a code point that is no character stands for the zero character, which stays too
  by_cases none : Char.ofNat code = '\x00'
  · rw [none]
    exact congrArg (List.map Char.ofNat) zero
  · rw [← toNat_of_ofNat_eq rfl none, stays, List.map_singleton]

theorem exists_lowercase_head (char : Char) :
    ∃ first rest, lowercase char = first :: rest ∧ lowercase first = [first] :=
  lowercase_settled.exists_head (by decide +kernel) char

theorem exists_uppercase_head (char : Char) :
    ∃ first rest, uppercase char = first :: rest ∧ uppercase first = [first] :=
  uppercase_settled.exists_head (by decide +kernel) char

theorem lowercase_ne_nil (char : Char) : lowercase char ≠ [] := by
  obtain ⟨first, rest, exact, -⟩ := exists_lowercase_head char
  rw [exact]
  exact List.cons_ne_nil first rest

theorem uppercase_ne_nil (char : Char) : uppercase char ≠ [] := by
  obtain ⟨first, rest, exact, -⟩ := exists_uppercase_head char
  rw [exact]
  exact List.cons_ne_nil first rest

/-- The change puts the image of a text's first character in the place of that character. -/
structure ChangesFirst (image : Char → Text) (change : Text → Text) : Prop where
  nil : change [] = []
  cons (head : Char) (rest : Text) : change (head :: rest) = image head ++ rest

theorem lowerFirst_changesFirst : ChangesFirst lowercase Text.lowerFirst :=
  ⟨rfl, fun _ _ => rfl⟩

theorem upperFirst_changesFirst : ChangesFirst uppercase Text.upperFirst :=
  ⟨rfl, fun _ _ => rfl⟩

namespace ChangesFirst

variable {image : Char → Text} {change : Text → Text} (changes : ChangesFirst image change)

include changes

theorem append {front : Text} (nonempty : front ≠ []) (back : Text) :
    change (front ++ back) = change front ++ back := by
  obtain ⟨head, rest, rfl⟩ := List.exists_cons_of_ne_nil nonempty
  rw [List.cons_append, changes.cons, changes.cons, List.append_assoc]

/-- The second time, only the first character of the first image counts. -/
theorem idempotent
    (settled : ∀ char, ∃ first rest, image char = first :: rest ∧ image first = [first])
    (text : Text) : change (change text) = change text := by
  cases text with
  | nil => rw [changes.nil, changes.nil]
  | cons head rest =>
      obtain ⟨first, others, exact, stays⟩ := settled head
      rw [changes.cons, exact, List.cons_append, changes.cons, stays, List.singleton_append]

end ChangesFirst

namespace Text

theorem lowerFirst_lowerFirst (text : Text) : text.lowerFirst.lowerFirst = text.lowerFirst :=
  lowerFirst_changesFirst.idempotent exists_lowercase_head text

theorem upperFirst_upperFirst (text : Text) : text.upperFirst.upperFirst = text.upperFirst :=
  upperFirst_changesFirst.idempotent exists_uppercase_head text

end Text

/-! ## Identifiers -/

def rangeInside (low high : Nat) : List (Nat × Nat) → Bool
  | [] => false
  | (first, last) :: rest =>
    Nat.ble first low && (Nat.ble high last || rangeInside low high rest)

theorem inRanges_of_rangeInside {low high code : Nat} {ranges : List (Nat × Nat)}
    (inside : rangeInside low high ranges = true) (lower : low ≤ code) (upper : code ≤ high) :
    inRanges code ranges = true := by
  induction ranges with
  | nil => cases inside
  | cons range rest inductionHypothesis =>
      simp only [rangeInside, Bool.and_eq_true, Bool.or_eq_true, Nat.ble_eq] at inside
      simp only [inRanges, Bool.and_eq_true, Bool.or_eq_true, decide_eq_true_eq]
      refine ⟨by omega, inside.2.imp (fun last => by omega) inductionHypothesis⟩

/-- The run moves code points into the ranges: it reaches into one of them, or each of its code
points is looked at. -/
def CaseRun.movesInto (run : CaseRun) (ranges : List (Nat × Nat)) : Bool :=
  rangeInside run.target (run.target + (run.last - run.first)) ranges ||
    (List.range (run.last - run.first + 1)).all fun distance =>
      distance % run.step != 0 || inRanges (run.target + distance) ranges

theorem CaseRun.inRanges_of_movesInto {run : CaseRun} {ranges : List (Nat × Nat)}
    (moves : run.movesInto ranges = true) {code image : Nat}
    (reached : run.image? code = some image) : inRanges image ranges = true := by
  obtain ⟨⟨low, high, step⟩, rfl⟩ := image?_eq_some_iff.mp reached
  rcases Bool.or_eq_true_iff.mp moves with inside | each
  · exact inRanges_of_rangeInside inside (by omega) (by omega)
  · have distance := List.all_eq_true.mp each (code - run.first) (List.mem_range.mpr (by omega))
    simpa [step] using distance

theorem exists_range_of_isIdentifierStart {char : Char} (starts : isIdentifierStart char = true) :
    ∃ range ∈ (0x5F, 0x5F) :: identifierStartRanges,
      range.1 ≤ char.toNat ∧ char.toNat ≤ range.2 := by
  simp only [isIdentifierStart, isIdentifierLetter, Bool.or_eq_true, decide_eq_true_eq] at starts
  rcases starts with rfl | letter
  · exact ⟨(0x5F, 0x5F), List.mem_cons_self, by decide, by decide⟩
  · obtain ⟨range, member, bounds⟩ := exists_range_of_inRanges letter
    exact ⟨range, List.mem_cons_of_mem _ member, bounds⟩

structure CaseKeepsWords (expansions : List (Nat × List Nat)) (runs : List CaseRun) : Prop where
  /-- A run moves all that it covers to letters, or nothing that it covers begins an identifier. -/
  runs : ∀ run ∈ runs, (run.movesInto identifierStartRanges ||
    ((0x5F, 0x5F) :: identifierStartRanges).all (rangesApart (run.first, run.last))) = true
  expansions : ∀ expansion ∈ expansions,
    ∃ first ∈ expansion.2.head?, isIdentifierStart (Char.ofNat first) = true ∧
      ∀ code ∈ expansion.2, isIdentifierContinue (Char.ofNat code) = true

theorem lowercase_keepsWords : CaseKeepsWords lowercaseExpansions lowercaseRuns where
  runs := by decide +kernel
  expansions := by decide +kernel

theorem uppercase_keepsWords : CaseKeepsWords uppercaseExpansions uppercaseRuns where
  runs := by decide +kernel
  expansions := by decide +kernel

theorem identifierStartRanges_valid : ∀ range ∈ identifierStartRanges,
    range.2 < 0xD800 ∨ 0xDFFF < range.1 ∧ range.2 < 0x110000 := by
  decide +kernel

theorem isIdentifierLetter_ofNat {code : Nat} (letter : inRanges code identifierStartRanges = true) :
    isIdentifierLetter (Char.ofNat code) = true := by
  obtain ⟨range, member, low, high⟩ := exists_range_of_inRanges letter
  have valid : code.isValidChar := by
    have := identifierStartRanges_valid range member
    unfold Nat.isValidChar
    omega
  rwa [isIdentifierLetter, toNat_ofNat_of_isValidChar valid]

def BeginsWord (text : Text) : Prop :=
  ∃ first rest, text = first :: rest ∧ isIdentifierStart first = true ∧
    ∀ later ∈ rest, isIdentifierContinue later = true

theorem CaseKeepsWords.beginsWord {expansions : List (Nat × List Nat)} {runs : List CaseRun}
    (keeps : CaseKeepsWords expansions runs) {char : Char}
    (starts : isIdentifierStart char = true) :
    BeginsWord ((caseImage expansions runs char.toNat).map Char.ofNat) := by
  rcases caseImage_cases expansions runs char.toNat with
    ⟨run, member, image, moved, exact⟩ | ⟨codes, listed, exact⟩ | exact
  · rw [exact]
    refine ⟨Char.ofNat image, [], rfl, ?_, fun _ later => nomatch later⟩
    rcases Bool.or_eq_true_iff.mp (keeps.runs run member) with letters | apart
    · rw [isIdentifierStart, isIdentifierLetter_ofNat (run.inRanges_of_movesInto letters moved),
        Bool.or_true]
    · obtain ⟨⟨low, high, -⟩, -⟩ := CaseRun.image?_eq_some_iff.mp moved
      obtain ⟨range, rangeMember, rangeLow, rangeHigh⟩ := exists_range_of_isIdentifierStart starts
      have outside := List.all_eq_true.mp apart range rangeMember
      simp only [rangesApart, Bool.or_eq_true, Nat.blt_eq] at outside
      omega
  · obtain ⟨first, head, begins, continues⟩ := keeps.expansions _ listed
    obtain ⟨rest, split⟩ := List.head?_eq_some_iff.mp head
    simp only at split
    subst split
    refine ⟨Char.ofNat first, rest.map Char.ofNat, by rw [exact, List.map_cons], begins, ?_⟩
    intro later member
    obtain ⟨code, codeMember, rfl⟩ := List.mem_map.mp member
    exact continues code (List.mem_cons_of_mem first codeMember)
  · rw [exact, List.map_singleton, Char.ofNat_toNat]
    exact ⟨char, [], rfl, starts, fun _ later => nomatch later⟩

namespace Text

theorem isIdentifier_of_beginsWord {head : Char} {rest image : Text}
    (word : isIdentifier (head :: rest) = true)
    (begins : isIdentifierStart head = true → BeginsWord image) :
    isIdentifier (image ++ rest) = true := by
  simp only [isIdentifier, Bool.and_eq_true, List.all_eq_true] at word
  obtain ⟨first, others, rfl, starts, continues⟩ := begins word.1
  rw [List.cons_append, isIdentifier, starts, Bool.true_and, List.all_append,
    List.all_eq_true.mpr continues, List.all_eq_true.mpr word.2]
  rfl

theorem isIdentifier_lowerFirst {name : Text} (word : name.isIdentifier = true) :
    name.lowerFirst.isIdentifier = true := by
  cases name with
  | nil => cases word
  | cons head rest => exact isIdentifier_of_beginsWord word lowercase_keepsWords.beginsWord

theorem isIdentifier_upperFirst {name : Text} (word : name.isIdentifier = true) :
    name.upperFirst.isIdentifier = true := by
  cases name with
  | nil => cases word
  | cons head rest => exact isIdentifier_of_beginsWord word uppercase_keepsWords.beginsWord

/-- The changes of case put one or more characters in the place of the first one and leave what
stands behind it alone; doing them again changes nothing, and they keep identifiers identifiers. -/
theorem case_changes_local_and_idempotent :
    (∀ (head : Char) (rest : Text),
      (lowercase head ≠ [] ∧ lowerFirst (head :: rest) = lowercase head ++ rest) ∧
        uppercase head ≠ [] ∧ upperFirst (head :: rest) = uppercase head ++ rest) ∧
    (∀ front back : Text, front ≠ [] →
      (front ++ back).lowerFirst = front.lowerFirst ++ back ∧
        (front ++ back).upperFirst = front.upperFirst ++ back) ∧
    (∀ text : Text, text.lowerFirst.lowerFirst = text.lowerFirst ∧
      text.upperFirst.upperFirst = text.upperFirst) ∧
    ∀ name : Text, name.isIdentifier = true →
      name.lowerFirst.isIdentifier = true ∧ name.upperFirst.isIdentifier = true := by
  refine ⟨fun head rest => ?_, fun front back nonempty => ?_, fun text => ?_, fun name word => ?_⟩
  · exact ⟨⟨lowercase_ne_nil head, lowerFirst_changesFirst.cons head rest⟩,
      uppercase_ne_nil head, upperFirst_changesFirst.cons head rest⟩
  · exact ⟨lowerFirst_changesFirst.append nonempty back,
      upperFirst_changesFirst.append nonempty back⟩
  · exact ⟨text.lowerFirst_lowerFirst, text.upperFirst_upperFirst⟩
  · exact ⟨isIdentifier_lowerFirst word, isIdentifier_upperFirst word⟩

/-- The upper case of `ŉ` has two characters, and the first of them has no other case. -/
theorem case_changes_of_apostrophe_n :
    ['\u0149'] ≠ [] ∧ isIdentifier ['\u0149', 'x'] = true ∧
      upperFirst (['\u0149'] ++ ['x']) = ['\u02BC', 'N'] ++ ['x'] ∧
      upperFirst ['\u02BC', 'N', 'x'] = ['\u02BC', 'N', 'x'] ∧
      isIdentifier ['\u02BC', 'N', 'x'] = true := by
  have nonempty : ['\u0149'] ≠ [] := List.cons_ne_nil _ _
  have word : isIdentifier ['\u0149', 'x'] = true := by decide +kernel
  have raised : upperFirst ['\u0149'] = ['\u02BC', 'N'] := by decide +kernel
  obtain ⟨-, locally, again, words⟩ := case_changes_local_and_idempotent
  have whole := (locally ['\u0149'] ['x'] nonempty).2
  rw [raised] at whole
  have stays := (again ['\u0149', 'x']).2
  have identifier := (words ['\u0149', 'x'] word).2
  rw [show upperFirst ['\u0149', 'x'] = ['\u02BC', 'N', 'x'] from whole] at stays identifier
  exact ⟨nonempty, word, whole, stays, identifier⟩

end Text

end StyleMacros
