import Mathlib.Data.List.Iterate
import Mathlib.Logic.Function.Iterate
import StyleMacros.Proofs.Source.ArgumentSpans
import StyleMacros.Proofs.Source.Movement
import StyleMacros.Proofs.Source.Names
import StyleMacros.Proofs.Source.Tokens

/-!
# Where reading a source comes to

A source is read from token to token, and over the attributes that mark its sites as wholes. What
reading comes to is ordered, so that nothing that is passed over reaches beyond such a place. Sites
begin and end at them.
-/

set_option autoImplicit false

namespace StyleMacros

def macroSpans (source : Text) : List Span :=
  (readSites source).flatMap fun site => site.macros.map fun used => used.2.span

/-! ## Attributes by what stands behind them -/

section Attributes

variable {total : Nat}

def Text.afterArguments? (text : Text) : Option Text :=
  (readArguments text.size text).map Prod.snd

theorem readArguments_behind {text : Text} (inside : text.size ≤ total) :
    (readArguments total text).map Prod.snd = text.afterArguments? := by
  obtain ⟨offset, rfl⟩ := Nat.exists_eq_add_of_le' inside
  rw [readArguments_moves text (Nat.le_refl _), Option.map_map]
  rfl

theorem Text.afterArguments?_of_head? {text : Text} (apart : text.head? ≠ some '(') :
    text.afterArguments? = none := by
  unfold Text.afterArguments? readArguments
  split
  · exact absurd rfl apart
  · rfl

theorem Text.identifier?_eq_none_iff {text : Text} :
    text.identifier? = none ↔ ∀ char ∈ text.head?, isIdentifierStart char = false := by
  cases text with
  | nil => simp [Text.identifier?]
  | cons head rest => simp [Text.identifier?]

theorem Text.endsWord_of_identifier? {text name rest : Text}
    (named : text.identifier? = some (name, rest)) : rest.EndsWord := by
  intro char first
  cases text with
  | nil => cases named
  | cons head tail =>
      simp only [Text.identifier?] at named
      split at named
      · cases Option.some.inj named
        have stops := List.head?_dropWhile_not isIdentifierContinue tail
        rwa [first] at stops
      · cases named

theorem readAttribute_eq {text : Text} (inside : text.size ≤ total) {written : Attribute}
    {rest : Text} (read : readAttribute total text = some (written, rest)) :
    ∃ behind : Text, text = '@' :: (written.name ++ behind) ∧ written.name.isIdentifier = true ∧
      behind.EndsWord ∧ rest = behind.afterArguments?.getD behind := by
  unfold readAttribute at read
  split at read
  · rename_i content
    obtain ⟨⟨name, behind⟩, named, result⟩ := Option.bind_eq_some_iff.mp read
    have whole := Text.append_of_identifier? named
    have small : behind.size ≤ total := by
      have sizes := Text.size_le_of_suffix (identifier?_leavesSuffix _ _ _ named)
      rw [Text.size_cons] at inside
      omega
    refine ⟨behind, ?_⟩
    rw [← readArguments_behind small]
    have parts : written.name = name ∧
        rest = ((readArguments total behind).map Prod.snd).getD behind := by
      dsimp only at result
      split at result <;> rename_i listed
      · cases Option.some.inj result
        exact ⟨rfl, by rw [listed]; rfl⟩
      · cases Option.some.inj result
        exact ⟨rfl, by rw [listed]; rfl⟩
    obtain ⟨rfl, exact⟩ := parts
    exact ⟨congrArg _ whole.symm, identifier?_answers _ _ _ named,
      Text.endsWord_of_identifier? named, exact⟩
  · cases read

theorem exists_readAttribute (total : Nat) {name behind : Text} (word : name.isIdentifier = true)
    (ends : behind.EndsWord) : ∃ written rest,
      readAttribute total ('@' :: (name ++ behind)) = some (written, rest) ∧ written.name = name := by
  simp only [readAttribute, Text.identifier?_append word ends, Option.bind_eq_bind,
    Option.bind_some]
  cases readArguments total behind with
  | none => exact ⟨_, _, rfl, rfl⟩
  | some found => exact ⟨_, _, rfl, rfl⟩

end Attributes

namespace Text

/-- The text behind the attribute at the head if it marks a site, and behind the token otherwise. -/
def past (source text : Text) : Text :=
  match readAttribute source.size text with
  | some (written, behind) =>
    if written.span ∈ macroSpans source then behind else text.behindToken
  | none => text.behindToken

/-- Reading the source comes to the end part `text`. -/
def Reached (source text : Text) : Prop :=
  ∃ count, (past source)^[count] source = text

/-! ## One step -/

variable {source : Text}

theorem past_of_notMem {text : Text} (free : ∀ written behind,
    readAttribute source.size text = some (written, behind) → written.span ∉ macroSpans source) :
    past source text = text.behindToken := by
  unfold past
  split
  · rename_i written behind read
    rw [if_neg (free written behind read)]
  · rfl

theorem past_of_noMark {head : Char} (noMark : head ≠ '@') (rest : Text) :
    past source (head :: rest) = behindToken (head :: rest) := by
  apply past_of_notMem
  intro written behind read
  rw [readAttribute_of_noMark noMark] at read
  cases read

theorem past_of_readAttribute {text behind : Text} {written : Attribute}
    (read : readAttribute source.size text = some (written, behind))
    (marks : written.span ∈ macroSpans source) : past source text = behind := by
  unfold past
  rw [read]
  exact if_pos marks

theorem past_suffix (head : Char) (rest : Text) : past source (head :: rest) <:+ rest := by
  unfold past
  split
  · rename_i written behind read
    split
    · have suffix := readAttribute_leavesSuffix source.size _ _ _ read
      have shorter := readAttribute_shorter read
      rcases List.suffix_cons_iff.mp suffix with same | inner
      · rw [same] at shorter
        exact absurd shorter (Nat.lt_irrefl _)
      · exact inner
    · exact behindToken_suffix head rest
  · exact behindToken_suffix head rest

theorem past_suffix_self (text : Text) : past source text <:+ text := by
  cases text with
  | nil => exact List.suffix_refl _
  | cons head rest => exact (past_suffix head rest).trans (List.suffix_cons head rest)

/-- An attribute ends with its name or with a parenthesis. -/
theorem readAttribute_solid {total : Nat} {text rest front : Text} {written : Attribute}
    {last : Char} (read : readAttribute total text = some (written, rest))
    (split : text = front ++ last :: rest) : isWhitespace last = false := by
  have ends (lead : Text) (final : Char) (same : text = lead ++ final :: rest) : final = last := by
    have lists := List.append_inj' (same.symm.trans split) rfl
    exact (List.cons.inj lists.2).1
  obtain ⟨behind, exact, named, tail, _⟩ := readAttribute_exposes_parts read
  rcases tail with rfl | ⟨inner, rfl⟩
  · obtain ⟨lead, final, nameExact, solid⟩ := exists_solid_end_of_identifier? named
    rw [← ends ('@' :: lead) final (by rw [exact, nameExact]; simp)]
    exact solid
  · rw [← ends ('@' :: written.name ++ inner) ')' (by rw [exact]; simp)]
    decide

/-- What is passed over in one step ends with a solid character, unless it is a single one. -/
theorem past_solid {text front : Text} {last : Char}
    (split : text = front ++ last :: past source text) (long : front ≠ []) :
    isWhitespace last = false := by
  cases text with
  | nil => simp at split
  | cons head rest =>
      unfold past at split
      split at split
      · rename_i written behind read
        split at split
        · exact readAttribute_solid read split
        · exact (token_behindToken head rest).solid split long
      · exact (token_behindToken head rest).solid split long

/-! ## Places that are reached -/

theorem Reached.start (source : Text) : Reached source source :=
  ⟨0, rfl⟩

theorem Reached.past {text : Text} (reached : Reached source text) :
    Reached source (past source text) := by
  obtain ⟨count, exact⟩ := reached
  exact ⟨count + 1, by rw [Function.iterate_succ_apply', exact]⟩

theorem iterate_past_suffix (count : Nat) (text : Text) : (past source)^[count] text <:+ text := by
  induction count with
  | zero => exact List.suffix_refl text
  | succ count inductionHypothesis =>
      rw [Function.iterate_succ_apply']
      exact (past_suffix_self _).trans inductionHypothesis

theorem Reached.suffix {text : Text} (reached : Reached source text) : text <:+ source := by
  obtain ⟨count, rfl⟩ := reached
  exact iterate_past_suffix count source

/-- Nothing that reading passes over reaches beyond another place that it comes to. -/
theorem Reached.suffix_past {text later : Text} (first : Reached source text)
    (second : Reached source later) (behind : later.length < text.length) :
    later <:+ Text.past source text := by
  obtain ⟨count, rfl⟩ := first
  obtain ⟨further, rfl⟩ := second
  rcases Nat.lt_or_ge count further with before | after
  · obtain ⟨steps, rfl⟩ := Nat.exists_eq_add_of_lt before
    rw [show count + steps + 1 = steps + (count + 1) by omega, Function.iterate_add_apply,
      Function.iterate_succ_apply']
    exact iterate_past_suffix steps _
  · obtain ⟨steps, rfl⟩ := Nat.exists_eq_add_of_le after
    rw [Nat.add_comm, Function.iterate_add_apply] at behind
    exact absurd (iterate_past_suffix steps _).length_le (Nat.not_le.mpr behind)

theorem Reached.behindToken {head : Char} {rest : Text} (reached : Reached source (head :: rest))
    (noMark : head ≠ '@') : Reached source (Text.behindToken (head :: rest)) :=
  past_of_noMark noMark rest ▸ reached.past

theorem Reached.skipTrivia {text : Text} (reached : Reached source text) :
    Reached source (skipTrivia text) :=
  of_skipTrivia (fun _ _ noMark reached => reached.behindToken noMark) reached

theorem Reached.of_blanks_append {blanks rest : Text}
    (blank : ∀ char ∈ blanks, isWhitespace char = true) (reached : Reached source (blanks ++ rest)) :
    Reached source rest :=
  Text.of_blanks_append (fun _ _ noMark reached => reached.behindToken noMark) blank reached

theorem exists_reached_around {part : Text} (inside : part <:+ source) :
    ∃ text, Reached source text ∧ part <:+ text ∧ (text = part ∨ ¬ part <:+ past source text) := by
  have search (text : Text) (reached : Reached source text) (around : part <:+ text) :
      ∃ text, Reached source text ∧ part <:+ text ∧
        (text = part ∨ ¬ part <:+ past source text) := by
    induction length : text.length using Nat.strongRecOn generalizing text with
    | ind length inductionHypothesis =>
        subst length
        by_cases further : part <:+ past source text
        · cases text with
          | nil => exact ⟨[], reached, around, .inl (List.eq_nil_of_suffix_nil around).symm⟩
          | cons head rest =>
              have shorter : (Text.past source (head :: rest)).length ≤ rest.length :=
                (past_suffix head rest).length_le
              exact inductionHypothesis _ (Nat.lt_succ_of_le shorter) _ reached.past further rfl
        · exact ⟨text, reached, around, .inr further⟩
  exact search source (.start source) inside

/-- Blanks in front of a place that is reached are reached one by one. -/
theorem Reached.append_blanks {blanks text : Text} (reached : Reached source text)
    (blank : ∀ char ∈ blanks, isWhitespace char = true) (inside : blanks ++ text <:+ source) :
    Reached source (blanks ++ text) := by
  obtain ⟨around, aroundReached, outer, rfl | inner⟩ := exists_reached_around inside
  · exact aroundReached
  obtain ⟨lead, exact⟩ := outer
  rcases List.eq_nil_or_concat' lead with rfl | ⟨others, first, rfl⟩
  · exact exact ▸ aroundReached
  -- what is passed over in one step would end among the blanks
  rcases List.suffix_or_suffix_of_suffix ⟨_, exact⟩ (past_suffix_self around) with short | ⟨front, whole⟩
  · exact absurd short inner
  have behind : text <:+ Text.past source around := by
    apply aroundReached.suffix_past reached
    rw [← exact]
    simp only [List.length_append, List.length_singleton]
    omega
  obtain ⟨middle, later⟩ := behind
  rcases List.eq_nil_or_concat' front with rfl | ⟨more, last, rfl⟩
  · exact absurd ⟨[], whole.symm⟩ inner
  have spaces : blanks = more ++ [last] ++ middle := by
    have same : blanks ++ text = more ++ [last] ++ middle ++ text := by
      rw [← whole, ← later]
      simp
    exact List.append_cancel_right same
  have split : around = others ++ [first] ++ more ++ last :: Text.past source around :=
    exact.symm.trans (by rw [← whole]; simp)
  have solid := past_solid split (by simp)
  rw [blank last (by simp [spaces])] at solid
  cases solid

/-! ## Places in a list -/

def places (source : Text) : List Text :=
  List.iterate (Text.past source) source (source.length + 1)

theorem length_iterate_past (count : Nat) (text : Text) :
    ((Text.past source)^[count] text).length ≤ text.length - count := by
  induction count with
  | zero => exact Nat.le_refl _
  | succ count inductionHypothesis =>
      rw [Function.iterate_succ_apply']
      generalize (Text.past source)^[count] text = place at inductionHypothesis ⊢
      cases place with
      | nil => exact Nat.zero_le _
      | cons head rest =>
          have shorter : (Text.past source (head :: rest)).length ≤ rest.length :=
            (past_suffix head rest).length_le
          rw [List.length_cons] at inductionHypothesis
          omega

theorem reached_iff_mem_places {text : Text} : Reached source text ↔ text ∈ places source := by
  rw [places, List.mem_iterate]
  constructor
  · rintro ⟨count, rfl⟩
    rcases Nat.lt_or_ge source.length count with long | short
    · -- behind the last place there is nothing to pass over
      have atEnd (further : Nat) (enough : source.length ≤ further) :
          (Text.past source)^[further] source = [] := by
        have bound : ((Text.past source)^[further] source).length ≤ source.length - further :=
          length_iterate_past further source
        exact List.eq_nil_of_length_eq_zero (by omega)
      exact ⟨source.length, Nat.lt_succ_self _,
        (atEnd count (Nat.le_of_lt long)).trans (atEnd _ (Nat.le_refl _)).symm⟩
    · exact ⟨count, Nat.lt_succ_of_le short, rfl⟩
  · rintro ⟨count, -, exact⟩
    exact ⟨count, exact.symm⟩

/-- What stands behind a mark, at every place that reading comes to. -/
def behindMark (source mark : Text) : List Text :=
  (places source).filterMap (Text.after? mark)

theorem Reached.mem_behindMark (mark : Text) {rest : Text} (reached : Reached source (mark ++ rest)) :
    rest ∈ behindMark source mark :=
  List.mem_filterMap.mpr
    ⟨_, reached_iff_mem_places.mp reached, List.isPrefixOf?_eq_some_iff_append_eq.mpr rfl⟩

instance (source text : Text) : Decidable (source.Reached text) :=
  decidable_of_iff (∃ place ∈ places source, place = text)
    (exists_eq_right.trans reached_iff_mem_places.symm)

end Text

end StyleMacros
