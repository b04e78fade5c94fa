import StyleMacros.Proofs.Rendering.Ranges
import StyleMacros.Proofs.Source.Trivia

/-!
# Where peers land

Peers go right behind the declaration, unless the rest of its line starts and ends as comments
do; then they go behind the last solid character of the line. What stands in between may
nevertheless be code, or a comment that is still open there. It is trivia exactly if the line
holds nothing but whitespace and comments that end on it.
-/

set_option autoImplicit false

namespace StyleMacros

variable {source : Text} {stop : Nat}

theorem Text.IsBoundary.exists_trimmed_tail (boundary : source.IsBoundary stop) :
    ∃ rest, source.dropBytes stop = (source.lineAfter stop).trimEnd ++ rest ∧
      source.dropBytes (stop + Text.size (source.lineAfter stop).trimEnd) = rest ∧
      '\n' ∉ (source.lineAfter stop).trimEnd ∧ rest.FirstLineBlank := by
  obtain ⟨front, later, whole, start, inLine, ends⟩ := boundary.exists_line_tail
  obtain ⟨blanks, split, spaces⟩ := Text.exists_blanks_of_trimEnd (source.lineAfter stop)
  generalize (source.lineAfter stop).trimEnd = piece at split
  generalize source.lineAfter stop = line at whole inLine split
  subst split
  subst start
  subst whole
  refine ⟨blanks ++ later, ?_, ?_, ?_, blanks, later, rfl, ?_, ends⟩
  · rw [Text.dropBytes_size_append, List.append_assoc]
  · rw [← Text.size_append, List.append_assoc, ← List.append_assoc front,
      Text.dropBytes_size_append]
  · exact fun member => inLine '\n' (List.mem_append_left blanks member) rfl
  · intro char member
    exact ⟨spaces char member, inLine char (List.mem_append_right piece member)⟩

theorem Text.IsBoundary.triviaUpTo_peerAnchor_iff (boundary : source.IsBoundary stop) :
    Text.TriviaUpTo (source.dropBytes (peerAnchor source stop)) (source.dropBytes stop) ↔
      (isTrailingComment (source.lineAfter stop).trimEnd.trimStart = true →
        Text.lineIsTrivia (source.dropBytes stop) = true) := by
  simp only [peerAnchor]
  split
  · rename_i trailing
    obtain ⟨rest, whole, cut, inLine, blank⟩ := boundary.exists_trimmed_tail
    rw [cut, whole, Text.triviaUpTo_iff_lineIsTrivia blank inLine]
    exact ⟨fun accepted _ => accepted, fun accepted => accepted trailing⟩
  · rename_i other
    exact ⟨fun _ trailing => absurd trailing other, fun _ => .done⟩

/-- The peers of a site that could be expanded are put in at one place behind its declaration.
What stands in front of that place is whitespace and complete comments exactly if the rest of the
declaration's line is not taken for a comment or holds nothing but whitespace and comments that
end on it. -/
theorem peers_follow_trivia_iff_line_is_trivia (source : SourceText)
    (settings : ExpansionSettings) (site : SiteExpansion)
    (member : site ∈ (FileExpansion.ofSource source settings).sites) (sound : site.isOk = true)
    (peered : site.peers ≠ []) :
    ∃ declaration, site.declaration = some declaration ∧
      (∀ unit, peersEdit source.content declaration.span.stop
        (source.content.lineIndent site.span.start) site.peers ∈ site.edits source.content unit) ∧
      (Text.TriviaUpTo
          (source.content.dropBytes (peerAnchor source.content declaration.span.stop))
          (source.content.dropBytes declaration.span.stop) ↔
        (isTrailingComment
            (source.content.lineAfter declaration.span.stop).trimEnd.trimStart = true →
          Text.lineIsTrivia (source.content.dropBytes declaration.span.stop) = true)) := by
  have placed := (FileExpansion.ofSource_placed source settings).sites site member
  obtain ⟨written, _, rfl⟩ := List.mem_map.mp member
  obtain ⟨declaration, declared⟩ := Site.exists_declaration_of_isOk sound
  refine ⟨declaration, declared, ?_, (placed.stop_boundary declared).triviaUpTo_peerAnchor_iff⟩
  intro unit
  exact List.mem_append_right _
    ((SiteExpansion.mem_insertions_iff declared).mpr (.inr ⟨peered, rfl⟩))

def twoCommentsBehind : SourceText :=
  ⟨"Views.swift", "@Style(subViews: [])\nprotocol A \x7b\x7d /* a */ /* b */\n"⟩

theorem peers_follow_two_comments :
    ∃ site ∈ (FileExpansion.ofSource twoCommentsBehind {}).sites, site.isOk = true ∧
      site.peers ≠ [] ∧ ∃ declaration, site.declaration = some declaration ∧
        Text.TriviaUpTo
          (twoCommentsBehind.content.dropBytes
            (peerAnchor twoCommentsBehind.content declaration.span.stop))
          (twoCommentsBehind.content.dropBytes declaration.span.stop) := by
  have facts : ∃ site ∈ (FileExpansion.ofSource twoCommentsBehind {}).sites, site.isOk = true ∧
      site.peers ≠ [] ∧ ∀ declaration ∈ site.declaration,
        Text.lineIsTrivia (twoCommentsBehind.content.dropBytes declaration.span.stop) = true := by
    decide +kernel
  obtain ⟨site, member, sound, peered, accepted⟩ := facts
  obtain ⟨declaration, declared, _, exact⟩ :=
    peers_follow_trivia_iff_line_is_trivia twoCommentsBehind {} site member sound peered
  exact ⟨site, member, sound, peered, declaration, declared,
    exact.mpr fun _ => accepted declaration declared⟩

/-- A statement between two comments behind a protocol. -/
def codeBetweenComments : SourceText :=
  ⟨"Views.swift", "@Style(subViews: [])\nprotocol A \x7b\x7d /* a */ let b = 1 /* c */\n"⟩

theorem peers_follow_code_between_comments :
    ∃ site ∈ (FileExpansion.ofSource codeBetweenComments {}).sites, site.isOk = true ∧
      site.peers ≠ [] ∧ ∃ declaration, site.declaration = some declaration ∧
        ¬ Text.TriviaUpTo
          (codeBetweenComments.content.dropBytes
            (peerAnchor codeBetweenComments.content declaration.span.stop))
          (codeBetweenComments.content.dropBytes declaration.span.stop) := by
  have facts : ∃ site ∈ (FileExpansion.ofSource codeBetweenComments {}).sites,
      site.isOk = true ∧ site.peers ≠ [] ∧ ∃ declaration ∈ site.declaration,
        isTrailingComment
          (codeBetweenComments.content.lineAfter declaration.span.stop).trimEnd.trimStart = true ∧
        Text.lineIsTrivia
          (codeBetweenComments.content.dropBytes declaration.span.stop) = false := by
    decide +kernel
  obtain ⟨site, member, sound, peered, declaration, declared, trailing, refused⟩ := facts
  refine ⟨site, member, sound, peered, declaration, declared, fun trivia => ?_⟩
  have placed := (FileExpansion.ofSource_placed codeBetweenComments {}).sites site member
  have accepted :=
    (placed.stop_boundary declared).triviaUpTo_peerAnchor_iff.mp trivia trailing
  rw [accepted] at refused
  cases refused

end StyleMacros
