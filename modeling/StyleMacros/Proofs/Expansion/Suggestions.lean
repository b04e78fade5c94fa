import StyleMacros.Proofs.Expansion.Acceptance
import StyleMacros.Proofs.Text.LetterCase

/-!
# Suggested names of sub-views

A name of a sub-view that lower case leaves as it is is refused, and the name with its first
character in upper case is suggested. The suggestion is always an identifier. It is another name,
and one that is accepted, exactly where upper case changes the first character, with one exception:
`ŉ` becomes an apostrophe and an `N`, and lower case leaves the apostrophe as it is.
-/

set_option autoImplicit false

namespace StyleMacros

/-! ## From upper case back to lower case -/

/-- Whatever this run moves, the other run moves on. -/
def CaseRun.movedOnBy (run other : CaseRun) : Bool :=
  Nat.ble other.first run.target && Nat.ble (run.target + (run.last - run.first)) other.last &&
    (other.step == 1 ||
      (run.step == other.step || run.first == run.last) &&
        (run.target - other.first) % other.step == 0)

theorem CaseRun.exists_image?_of_movedOnBy {run other : CaseRun}
    (moves : run.movedOnBy other = true) {code image : Nat}
    (reached : run.image? code = some image) : ∃ again, other.image? image = some again := by
  obtain ⟨⟨low, high, step⟩, rfl⟩ := image?_eq_some_iff.mp reached
  simp only [movedOnBy, Bool.and_eq_true, Bool.or_eq_true, Nat.ble_eq, beq_iff_eq] at moves
  obtain ⟨⟨first, last⟩, steps⟩ := moves
  have distance : run.target + (code - run.first) - other.first =
      run.target - other.first + (code - run.first) := by omega
  refine ⟨_, image?_eq_some_iff.mpr ⟨⟨by omega, by omega, ?_⟩, rfl⟩⟩
  rw [distance]
  rcases steps with every | ⟨same | single, start⟩
  · rw [every, Nat.mod_one]
  · rw [Nat.add_mod, start, ← same, step, Nat.zero_add, Nat.zero_mod]
  · have only : code - run.first = 0 := by omega
    rw [only, Nat.add_zero, start]

theorem caseImage_ne_of_moved {expansions : List (Nat × List Nat)} {runs : List CaseRun}
    {code : Nat} (away : ∀ run ∈ runs, run.first ≠ run.target)
    (moved : ∃ run ∈ runs, ∃ image, run.image? code = some image) :
    caseImage expansions runs code ≠ [code] := by
  obtain ⟨run, member, image, reached⟩ := moved
  cases found : runs.findSome? (fun run => run.image? code) with
  | none => exact absurd (List.findSome?_eq_none_iff.mp found run member) (by simp [reached])
  | some image =>
      obtain ⟨mover, moverMember, mapped⟩ := List.exists_of_findSome?_eq_some found
      obtain ⟨⟨low, -, -⟩, rfl⟩ := CaseRun.image?_eq_some_iff.mp mapped
      have elsewhere := away mover moverMember
      simp only [caseImage, found, ne_eq, List.cons.injEq, and_true]
      omega

/-- What a run puts in upper case, some run of lower case moves. -/
theorem uppercaseRuns_movedOn : ∀ run ∈ uppercaseRuns, lowercaseRuns.any run.movedOnBy = true := by
  decide +kernel

/-- All expansions but that of `ŉ` begin with what lower case changes. -/
theorem uppercaseExpansions_movedOn : ∀ expansion ∈ uppercaseExpansions, expansion.1 = 0x149 ∨
    ∃ first ∈ expansion.2.head?, Char.ofNat first ≠ '\x00' ∧
      caseImage lowercaseExpansions lowercaseRuns first ≠ [first] := by
  decide +kernel

theorem lowercaseRuns_move : ∀ run ∈ lowercaseRuns, run.first ≠ run.target ∧ 0 < run.first ∧
    (run.last < 0xD800 ∨ 0xDFFF < run.first ∧ run.last < 0x110000) := by
  decide +kernel

theorem ofNat_ne_zero_of_moved {run : CaseRun} (member : run ∈ lowercaseRuns) {code image : Nat}
    (moved : run.image? code = some image) : Char.ofNat code ≠ '\x00' := by
  obtain ⟨⟨low, high, -⟩, -⟩ := CaseRun.image?_eq_some_iff.mp moved
  obtain ⟨-, positive, valid⟩ := lowercaseRuns_move run member
  have valid : code.isValidChar := by
    unfold Nat.isValidChar
    omega
  intro zero
  have number := toNat_ofNat_of_isValidChar valid
  rw [zero] at number
  have none : code = 0 := number.symm
  omega

theorem lowercase_ofNat_ne {code : Nat} (nonzero : Char.ofNat code ≠ '\x00')
    (moved : caseImage lowercaseExpansions lowercaseRuns code ≠ [code]) :
    lowercase (Char.ofNat code) ≠ [Char.ofNat code] := by
  intro stays
  rw [lowercase, ← toNat_of_ofNat_eq rfl nonzero] at stays
  obtain ⟨image, single, same⟩ := List.map_eq_singleton_iff.mp stays
  have code := toNat_of_ofNat_eq same nonzero
  rw [← toNat_of_ofNat_eq rfl nonzero] at code
  exact moved (code ▸ single)

theorem lowercase_head_ne_of_uppercase {char first : Char} {rest : Text}
    (image : uppercase char = first :: rest) (raised : uppercase char ≠ [char])
    (other : char ≠ '\u0149') : lowercase first ≠ [first] := by
  rw [uppercase] at image raised
  rcases caseImage_cases uppercaseExpansions uppercaseRuns char.toNat with
    ⟨run, member, code, moved, exact⟩ | ⟨codes, listed, exact⟩ | exact
  · obtain ⟨mover, moverMember, moves⟩ := List.any_eq_true.mp (uppercaseRuns_movedOn run member)
    obtain ⟨again, movedOn⟩ := run.exists_image?_of_movedOnBy moves moved
    rw [exact] at image
    cases image
    exact lowercase_ofNat_ne (ofNat_ne_zero_of_moved moverMember movedOn)
      (caseImage_ne_of_moved (fun run member => (lowercaseRuns_move run member).1)
        ⟨mover, moverMember, again, movedOn⟩)
  · rcases uppercaseExpansions_movedOn _ listed with exception | ⟨code, head, nonzero, lowered⟩
    · exact absurd (Char.toNat_inj.mp exception) other
    · obtain ⟨others, split⟩ := List.head?_eq_some_iff.mp head
      simp only at split
      rw [exact, split] at image
      cases image
      exact lowercase_ofNat_ne nonzero lowered
  · rw [exact, List.map_singleton, Char.ofNat_toNat] at raised
    exact absurd rfl raised

/-! ## Suggestions -/

namespace Text

variable {head : Char} {rest : Text}

theorem upperFirst_eq_self_iff :
    upperFirst (head :: rest) = head :: rest ↔ uppercase head = [head] := by
  rw [upperFirst, ← List.singleton_append, List.append_left_inj]

theorem lowerFirst_eq_self_iff :
    lowerFirst (head :: rest) = head :: rest ↔ lowercase head = [head] := by
  rw [lowerFirst, ← List.singleton_append, List.append_left_inj]

/-- Upper case changes the first character to something that lower case changes. -/
def HasRaisedForm (name : Text) : Prop :=
  ∀ head ∈ name.head?, uppercase head ≠ [head] ∧ head ≠ '\u0149'

instance (name : Text) : Decidable name.HasRaisedForm :=
  show Decidable (∀ head ∈ name.head?, uppercase head ≠ [head] ∧ head ≠ '\u0149') from
    Option.decidableForallMem name.head?

/-- Where lower case changes nothing, upper case makes another name that lower case changes exactly
if the name has a raised form. -/
theorem upperFirst_changed_iff {name : Text} (word : name.isIdentifier = true)
    (unchanged : name.lowerFirst = name) :
    name.upperFirst ≠ name ∧ name.upperFirst.lowerFirst ≠ name.upperFirst ↔
      name.HasRaisedForm := by
  obtain ⟨head, rest, rfl⟩ := List.exists_cons_of_ne_nil (show name ≠ [] by rintro rfl; cases word)
  have stays := lowerFirst_eq_self_iff.mp unchanged
  have starts : isIdentifierStart head = true := by
    rw [isIdentifier, Bool.and_eq_true] at word
    exact word.1
  obtain ⟨first, others, image, -⟩ := uppercase_keepsWords.beginsWord starts
  have image : uppercase head = first :: others := image
  have raised : upperFirst (head :: rest) = first :: (others ++ rest) := by
    rw [upperFirst, image, List.cons_append]
  simp only [HasRaisedForm, List.head?_cons, Option.mem_def, Option.some_inj, forall_eq',
    ne_eq, upperFirst_eq_self_iff]
  rw [raised, lowerFirst_eq_self_iff]
  refine and_congr_right fun moved => ⟨fun lowered exception => lowered ?_, ?_⟩
  · subst exception
    cases image.symm.trans (show uppercase '\u0149' = ['\u02BC', 'N'] by decide +kernel)
    decide +kernel
  · exact fun other => lowercase_head_ne_of_uppercase image moved other

end Text

namespace Invocation

variable {invocation : Invocation} {declaration : Declaration} {targets : Targets}

def withList (invocation : Invocation) (names : List Text) : Invocation :=
  { invocation with
    arguments := invocation.arguments.map fun argument => { argument with value := .list names } }

theorem TakesList.withList {argument : Argument} {names : List Text}
    (takes : invocation.TakesList argument names) (others : List Text) :
    (invocation.withList others).TakesList { argument with value := .list others } others where
  only := by rw [Invocation.withList, takes.only, List.map_singleton]
  label := takes.label
  value := rfl

/-- The name that the help suggests for a name that is refused because lower case leaves it as it
is: it is an identifier, and it is another name and accepted, alone in the list, exactly if the
refused name has a raised form. -/
theorem suggestion_accepted_iff {name : Text} {span : Span}
    (refused : invocation.use declaration targets = .error ⟨.lowercaseSubView name, span⟩)
    (source : SourceText) (phase : Text) :
    (UseFault.diagnostic ⟨.lowercaseSubView name, span⟩ invocation.name source phase).help =
        some ("the wrapper type and its property would both be named `" ++ name ++ "`; use `" ++
          name.upperFirst ++ "`") ∧
      name.upperFirst.isIdentifier = true ∧
      (name.upperFirst ≠ name ∧ name.upperFirst.lowerFirst ≠ name.upperFirst ∧
          (invocation.withList [name.upperFirst]).use declaration targets =
            .ok (.style [name.upperFirst]) ↔
        name.HasRaisedForm) := by
  obtain ⟨isStyle, kind, argument, before, after, takes, -, flaw, -⟩ :=
    (use_error refused).2 name rfl
  cases flaw with
  | unchanged word unchanged =>
      have suggestion := Text.isIdentifier_upperFirst word
      refine ⟨rfl, suggestion, ?_⟩
      rw [← Text.upperFirst_changed_iff word unchanged]
      refine and_congr_right fun _ => ⟨fun accepted => accepted.1, fun changed => ⟨changed, ?_⟩⟩
      have fit : SubViewsFit [name.upperFirst] :=
        ⟨by simpa using suggestion, by simpa using changed, List.nodup_singleton _⟩
      have fits : (invocation.withList [name.upperFirst]).Fits declaration targets
          (.style [name.upperFirst]) :=
        .style isStyle kind (takes.withList _) fit
      exact fits.use_eq_ok

/-- A list in which lower case leaves the second name as it is. -/
def titleAndEta : Invocation :=
  ⟨.style, [⟨some "subViews", .list ["Title", "ßeta"], ⟨7, 36⟩⟩], ⟨0, 37⟩⟩

theorem suggestion_accepted_iff_of_sharp_s :
    titleAndEta.use ⟨"CardStyle", .protocol, [], none, ⟨38, 59⟩⟩ {} =
        .error ⟨.lowercaseSubView "ßeta", ⟨7, 36⟩⟩ ∧
      Text.upperFirst "ßeta" = "SSeta".toList ∧ Text.isIdentifier "SSeta" = true ∧
      (titleAndEta.withList ["SSeta"]).use ⟨"CardStyle", .protocol, [], none, ⟨38, 59⟩⟩ {} =
        .ok (.style ["SSeta"]) := by
  have refused : titleAndEta.use ⟨"CardStyle", .protocol, [], none, ⟨38, 59⟩⟩ {} =
      .error ⟨.lowercaseSubView "ßeta", ⟨7, 36⟩⟩ := by
    decide +kernel
  have raised : Text.upperFirst "ßeta" = "SSeta".toList := by decide +kernel
  obtain ⟨-, word, accepted⟩ := suggestion_accepted_iff refused ⟨"input", []⟩ "validate"
  rw [raised] at word accepted
  exact ⟨refused, raised, word, (accepted.mpr (by decide +kernel)).2.2⟩

/-- An underscore has no case: the name is refused and suggested. -/
theorem suggestion_repeats_refused_name :
    Invocation.use ⟨.style, [⟨some "subViews", .list ["_icon"], ⟨7, 26⟩⟩], ⟨0, 27⟩⟩
        ⟨"CardStyle", .protocol, [], none, ⟨28, 49⟩⟩ {} =
        .error ⟨.lowercaseSubView "_icon", ⟨7, 26⟩⟩ ∧
      Text.upperFirst "_icon" = "_icon".toList := by
  decide +kernel

end Invocation

end StyleMacros
