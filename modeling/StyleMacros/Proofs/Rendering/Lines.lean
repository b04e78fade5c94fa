import StyleMacros.Rendering.Line
import StyleMacros.Proofs.Text.Blanks
import StyleMacros.Proofs.Text.Offsets

/-!
# The line around a boundary

A boundary splits its line in two. What stands on either side is a piece of the text without a
line feed, and the line is left where the text ends or where a line feed stands.
-/

set_option autoImplicit false

namespace StyleMacros.Text

variable {source : Text} {offset : Nat}

theorem dropWhile_ne_feed_cases (text : Text) :
    text.dropWhile (· ≠ '\n') = [] ∨ ∃ rest, text.dropWhile (· ≠ '\n') = '\n' :: rest := by
  rcases dropWhile_cases (fun char => decide (char ≠ '\n')) text with
    none | ⟨feed, rest, exact, fails⟩
  · exact .inl none
  · have same : feed = '\n' := by simpa using fails
    exact .inr ⟨rest, same ▸ exact⟩

theorem mem_takeWhile_ne {char stop : Char} {text : Text}
    (member : char ∈ text.takeWhile (· ≠ stop)) : char ≠ stop := by
  simpa using List.mem_takeWhile_imp member

/-! ## In front of the boundary -/

/-- The line head: what stands between the last line feed and the boundary. -/
theorem IsBoundary.exists_line_head (boundary : IsBoundary source offset) :
    ∃ earlier head rest, source = earlier ++ (head ++ rest) ∧
      source.lineStart offset = size earlier ∧ offset = size earlier + size head ∧
      (∀ char ∈ head, char ≠ '\n') ∧ (earlier = [] ∨ ∃ front, earlier = front ++ ['\n']) := by
  obtain ⟨front, rest, rfl, rfl⟩ := boundary
  have split := List.takeWhile_append_dropWhile (p := (· ≠ '\n')) (l := front.reverse)
  have whole := congrArg List.reverse split
  rw [List.reverse_append, List.reverse_reverse] at whole
  refine ⟨(front.reverse.dropWhile (· ≠ '\n')).reverse,
    (front.reverse.takeWhile (· ≠ '\n')).reverse, rest, ?_, ?_, ?_, ?_, ?_⟩
  · rw [← List.append_assoc, whole]
  · have sizes := congrArg size whole
    rw [size_append] at sizes
    rw [lineStart, takeBytes_size_append]
    have reversed := size_reverse (front.reverse.takeWhile (· ≠ '\n'))
    omega
  · rw [← size_append, whole]
  · intro char member
    exact mem_takeWhile_ne (List.mem_reverse.mp member)
  · rcases dropWhile_ne_feed_cases front.reverse with none | ⟨others, exact⟩
    · exact .inl (by rw [none, List.reverse_nil])
    · exact .inr ⟨others.reverse, by rw [exact, List.reverse_cons]⟩

theorem IsBoundary.lineStart_boundary (boundary : IsBoundary source offset) :
    IsBoundary source (source.lineStart offset) := by
  obtain ⟨earlier, head, rest, rfl, start, _⟩ := boundary.exists_line_head
  rw [start]
  exact .of_append earlier (head ++ rest)

theorem IsBoundary.lineStart_le (boundary : IsBoundary source offset) :
    source.lineStart offset ≤ offset := by
  obtain ⟨earlier, head, rest, _, start, stop, _⟩ := boundary.exists_line_head
  omega

theorem IsBoundary.lineStart_cases (boundary : IsBoundary source offset) :
    source.lineStart offset = 0 ∨
      ∃ feed, CharAt source feed '\n' ∧ feed + 1 = source.lineStart offset := by
  obtain ⟨earlier, head, rest, rfl, start, _, _, none | ⟨front, rfl⟩⟩ := boundary.exists_line_head
  · left
    rw [start, none]
    rfl
  · right
    refine ⟨size front, ⟨front, head ++ rest, by simp, rfl⟩, ?_⟩
    rw [start, size_append]
    rfl

theorem IsBoundary.blank_before (boundary : IsBoundary source offset)
    (blank : isBlank (source.lineBefore offset) = true) :
    Throughout source (source.lineStart offset) offset isWhitespace := by
  obtain ⟨earlier, head, rest, rfl, start, stop, _⟩ := boundary.exists_line_head
  rw [lineBefore, slice_append earlier head rest _ _ start stop] at blank
  rw [start, stop]
  exact .of_pieces earlier rest (List.all_eq_true.mp blank)

theorem IsBoundary.lineStart_le_iff (boundary : IsBoundary source offset) {place : Nat}
    (start : IsBoundary source place) :
    source.lineStart offset ≤ place ↔ '\n' ∉ source.slice place offset := by
  rw [start.mem_slice_iff boundary]
  constructor
  · rintro low ⟨feed, found, behind, inFront⟩
    obtain ⟨earlier, head, rest, exact, lineStart, stop, clean, -⟩ := boundary.exists_line_head
    have other : ∀ char ∈ head, decide (char ≠ '\n') = true := fun char member =>
      decide_eq_true (clean char member)
    have holds := Throughout.of_pieces earlier rest other
    rw [← exact, ← stop, ← lineStart] at holds
    rcases holds.outside found (by simp) with before | after <;> omega
  · intro none
    by_contra before
    rcases boundary.lineStart_cases with atStart | ⟨feed, found, next⟩
    · omega
    · have inside := boundary.lineStart_le
      exact none ⟨feed, found, by omega, by omega⟩

/-! ## Behind the boundary -/

theorem IsBoundary.exists_line_tail (boundary : IsBoundary source offset) :
    ∃ front later, source = front ++ (source.lineAfter offset ++ later) ∧ offset = size front ∧
      (∀ char ∈ source.lineAfter offset, char ≠ '\n') ∧
      (later = [] ∨ ∃ rest, later = '\n' :: rest) := by
  obtain ⟨front, rest, rfl, rfl⟩ := boundary
  rw [lineAfter, dropBytes_size_append]
  refine ⟨front, rest.dropWhile (· ≠ '\n'), ?_, rfl, fun char => mem_takeWhile_ne,
    dropWhile_ne_feed_cases rest⟩
  rw [List.takeWhile_append_dropWhile]

theorem IsBoundary.nextLine_cases (boundary : IsBoundary source offset) :
    (source.nextLine offset = offset + size (source.lineAfter offset) ∧
      source.nextLine offset = size source) ∨
    (source.nextLine offset = offset + size (source.lineAfter offset) + 1 ∧
      CharAt source (offset + size (source.lineAfter offset)) '\n') := by
  obtain ⟨front, later, exact, start, _, ends⟩ := boundary.exists_line_tail
  have whole := congrArg size exact
  rw [size_append, size_append, ← start] at whole
  rcases ends with rfl | ⟨rest, rfl⟩
  · left
    simp only [size_nil] at whole
    simp only [nextLine]
    rw [if_neg (by omega)]
    omega
  · right
    rw [size_cons, show Char.utf8Size '\n' = 1 from rfl] at whole
    simp only [nextLine]
    rw [if_pos (by omega)]
    refine ⟨rfl, front ++ source.lineAfter offset, rest, ?_, ?_⟩
    · rw [List.append_assoc, ← exact]
    · rw [size_append, ← start]

theorem IsBoundary.lineEnd_boundary (boundary : IsBoundary source offset) :
    IsBoundary source (offset + size (source.lineAfter offset)) := by
  obtain ⟨front, later, exact, start, _⟩ := boundary.exists_line_tail
  refine ⟨front ++ source.lineAfter offset, later, ?_, ?_⟩
  · rw [List.append_assoc, ← exact]
  · rw [size_append, ← start]

theorem IsBoundary.nextLine_boundary (boundary : IsBoundary source offset) :
    IsBoundary source (source.nextLine offset) := by
  rcases boundary.nextLine_cases with ⟨_, atEnd⟩ | ⟨behind, feed⟩
  · rw [atEnd]
    exact .atEnd source
  · rw [behind]
    exact feed.boundary_behind

theorem IsBoundary.le_nextLine (boundary : IsBoundary source offset) :
    offset ≤ source.nextLine offset := by
  rcases boundary.nextLine_cases with ⟨atEnd, _⟩ | ⟨behind, _⟩ <;> omega

theorem IsBoundary.throughout_of_lead (boundary : IsBoundary source offset) {lead tail : Text}
    (split : source.lineAfter offset = lead ++ tail) {predicate : Char → Bool}
    (all : ∀ char ∈ lead, predicate char = true) :
    Throughout source offset (offset + size lead) predicate := by
  obtain ⟨front, later, exact, rfl, _⟩ := boundary.exists_line_tail
  rw [split, List.append_assoc] at exact
  have pieces := Throughout.of_pieces front (tail ++ later) all
  rwa [← exact] at pieces

theorem IsBoundary.boundary_of_lead (boundary : IsBoundary source offset) {lead tail : Text}
    (split : source.lineAfter offset = lead ++ tail) :
    IsBoundary source (offset + size lead) := by
  obtain ⟨front, later, exact, rfl, _⟩ := boundary.exists_line_tail
  rw [split, List.append_assoc] at exact
  exact ⟨front ++ lead, tail ++ later, by rw [List.append_assoc, ← exact], size_append front lead⟩

theorem IsBoundary.lineEnd_le_of_feed (boundary : IsBoundary source offset) {feed : Nat}
    (found : CharAt source feed '\n') (behind : offset ≤ feed) :
    offset + size (source.lineAfter offset) ≤ feed := by
  obtain ⟨_, _, _, _, clean, _⟩ := boundary.exists_line_tail
  have holds : Throughout source offset (offset + size (source.lineAfter offset)) (· ≠ '\n') :=
    boundary.throughout_of_lead (List.append_nil _).symm
      fun char member => by simpa using clean char member
  rcases holds.outside found (by simp) with before | after
  · omega
  · exact after

theorem IsBoundary.nextLine_le_of_feed (boundary : IsBoundary source offset) {feed : Nat}
    (found : CharAt source feed '\n') (behind : offset ≤ feed) :
    source.nextLine offset ≤ feed + 1 := by
  have within := boundary.lineEnd_le_of_feed found behind
  rcases boundary.nextLine_cases with ⟨exact, _⟩ | ⟨exact, _⟩ <;> omega

theorem IsBoundary.lt_nextLine_iff (boundary : IsBoundary source offset) {place : Nat} {char : Char}
    (found : CharAt source place char) :
    place < source.nextLine offset ↔ '\n' ∉ source.slice offset place := by
  rw [boundary.mem_slice_iff found.boundary]
  constructor
  · rintro high ⟨feed, feedFound, behind, inFront⟩
    have next := boundary.nextLine_le_of_feed feedFound behind
    omega
  · intro none
    by_contra beyond
    rcases boundary.nextLine_cases with ⟨-, atEnd⟩ | ⟨next, feedFound⟩
    · have inside := found.lt_size
      omega
    · exact none ⟨_, feedFound, by omega, by omega⟩

theorem IsBoundary.blank_behind (boundary : IsBoundary source offset)
    (blank : isBlank (source.lineAfter offset) = true) :
    Throughout source offset (source.nextLine offset) isWhitespace := by
  have line := boundary.throughout_of_lead (List.append_nil _).symm (List.all_eq_true.mp blank)
  rcases boundary.nextLine_cases with ⟨exact, _⟩ | ⟨exact, feed⟩
  · rw [exact]
    exact line
  · rw [exact]
    intro place char found low high
    by_cases onLine : place < offset + size (source.lineAfter offset)
    · exact line place char found low onLine
    · have same : place = offset + size (source.lineAfter offset) := by omega
      rw [same] at found
      rw [found.char_eq feed]
      decide

end StyleMacros.Text
