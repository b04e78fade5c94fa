import Mathlib.Data.Nat.Digits.Defs
import StyleMacros.Proofs.Source.Literals

/-!
# What escapes stand for

The text between the quotes of a literal is cut from left to right into characters, letters behind
a backslash and groups of digits. A piece stands for a character if it is one of seven letters, or
a closed group of hexadecimal digits that names a character; every other piece stands for itself.
This is what resolving the escapes gives, with two exceptions: a group that is left open is taken
as if it were closed, and a plus sign in front of the digits is passed over.
-/

set_option autoImplicit false

namespace StyleMacros

/-! ## Hexadecimal numbers -/

def hexDigit? (digit : Char) : Option Nat :=
  "0123456789abcdef".toList.idxOf? digit <|> "0123456789ABCDEF".toList.idxOf? digit

def namedChar? (digits : Text) : Option Char := do
  let values ← digits.mapM hexDigit?
  if values = [] then none else charOfCode? (Nat.ofDigits 16 values.reverse)

theorem digitValue?_eq_hexDigit? (digit : Char) : Text.digitValue? 16 digit = hexDigit? digit := by
  by_cases ascii : digit.toNat < 128
  · have known : ∀ code < 128,
        Text.digitValue? 16 (Char.ofNat code) = hexDigit? (Char.ofNat code) := by
      decide +kernel
    rw [← Char.ofNat_toNat digit]
    exact known _ ascii
  · have unlisted : ∀ marks ∈ ["0123456789abcdef".toList, "0123456789ABCDEF".toList],
        digit ∉ marks := by
      have listed : ∀ marks ∈ ["0123456789abcdef".toList, "0123456789ABCDEF".toList],
          ∀ mark ∈ marks, mark.toNat < 128 := by
        decide
      exact fun marks member inside => ascii (listed marks member digit inside)
    have above (low high : Char) (bound : high.toNat < 128) : ¬ (low ≤ digit ∧ digit ≤ high) :=
      fun inside => ascii (Nat.lt_of_le_of_lt inside.2 bound)
    rw [hexDigit?, List.idxOf?_eq_none_iff.mpr (unlisted _ (by simp)),
      List.idxOf?_eq_none_iff.mpr (unlisted _ (by simp))]
    simp [Text.digitValue?, above '0' '9' (by decide), above 'a' 'f' (by decide),
      above 'A' 'F' (by decide)]

def addDigit (total : Option Nat) (digit : Char) : Option Nat := do
  return (← total) * 16 + (← Text.digitValue? 16 digit)

theorem foldl_addDigit_none (digits : Text) : digits.foldl addDigit none = none := by
  induction digits with
  | nil => rfl
  | cons digit rest inductionHypothesis => exact inductionHypothesis

theorem foldl_addDigit (digits : Text) (total : Nat) :
    digits.foldl addDigit (some total) = (digits.mapM hexDigit?).map fun values =>
      Nat.ofDigits 16 values.reverse + 16 ^ values.length * total := by
  induction digits generalizing total with
  | nil => simp
  | cons digit rest inductionHypothesis =>
      rw [List.foldl_cons, List.mapM_cons, addDigit, digitValue?_eq_hexDigit?]
      cases hexDigit? digit with
      | none => exact foldl_addDigit_none rest
      | some value =>
          have step : (do return (← some total) * 16 + (← some value) : Option Nat) =
              some (total * 16 + value) := rfl
          rw [step, inductionHypothesis]
          cases rest.mapM hexDigit? with
          | none => rfl
          | some values =>
              simp only [Option.map_some, Option.bind_eq_bind, Option.bind_some, Option.pure_def,
                List.reverse_cons, Nat.ofDigits_append, Nat.ofDigits_singleton, List.length_reverse,
                List.length_cons, Nat.pow_succ, Option.some_inj]
              ring

theorem number?_eq_ofDigits (digits : Text) :
    Text.number? 16 digits = (digits.mapM hexDigit?).bind fun values =>
      if values = [] then none else some (Nat.ofDigits 16 values.reverse) := by
  cases digits with
  | nil => rfl
  | cons digit rest =>
      have folded := foldl_addDigit (digit :: rest) 0
      rw [Text.number?, if_neg (List.cons_ne_nil _ _)]
      change (digit :: rest).foldl addDigit (some 0) = _
      rw [folded]
      cases read : (digit :: rest).mapM hexDigit? with
      | none => rfl
      | some values =>
          have nonempty : values ≠ [] := by
            rintro rfl
            rw [List.mapM_cons] at read
            cases first : hexDigit? digit <;> cases others : rest.mapM hexDigit? <;>
              simp [first, others] at read
          simp [nonempty]

theorem namedChar?_eq (digits : Text) :
    namedChar? digits = (Text.number? 16 digits).bind charOfCode? := by
  rw [number?_eq_ofDigits, namedChar?, Option.bind_assoc]
  refine congrArg _ (funext fun values => ?_)
  split <;> rfl

/-! ## Pieces -/

inductive EscapePiece where
  /-- A character that is no backslash. -/
  | plain (char : Char)
  /-- A backslash and a character that opens no group. -/
  | escaped (letter : Char)
  /-- A group: `\u` and what stands in braces behind it. -/
  | group (digits : Text)
  /-- A group that is still open at the end of the text. -/
  | openGroup (digits : Text)
  /-- A backslash at the end of the text. -/
  | backslash
  deriving DecidableEq

/-- A text, cut into pieces from left to right. -/
def escapePieces : Text → List EscapePiece
  | [] => []
  | '\\' :: 'u' :: '\x7b' :: rest =>
    if '\x7d' ∈ rest then
      .group (rest.takeWhile (· ≠ '\x7d')) ::
        escapePieces ((rest.dropWhile (· ≠ '\x7d')).drop 1)
    else [.openGroup rest]
  | ['\\'] => [.backslash]
  | '\\' :: letter :: rest => .escaped letter :: escapePieces rest
  | head :: rest => .plain head :: escapePieces rest
termination_by text => text.length
decreasing_by
  · have shorter := (List.dropWhile_suffix (· ≠ '\x7d') (l := rest)).length_le
    simp only [List.length_cons, List.length_drop]
    omega
  · simp only [List.length_cons]
    omega
  · simp only [List.length_cons]
    omega

/-- The letters that stand for a character behind a backslash. -/
def escapeLetters : List (Char × Char) :=
  [('n', '\n'), ('t', '\t'), ('r', '\r'), ('0', '\x00'), ('\\', '\\'), ('"', '"'), ('\'', '\'')]

namespace EscapePiece

def written : EscapePiece → Text
  | .plain char => [char]
  | .escaped letter => ['\\', letter]
  | .group digits => "\\u\x7b" ++ digits ++ "\x7d"
  | .openGroup digits => "\\u\x7b" ++ digits
  | .backslash => ['\\']

/-- What a piece stands for: the character that it names, or itself. -/
def value (piece : EscapePiece) : Text :=
  let named : Option Char :=
    match piece with
    | .escaped letter => escapeLetters.lookup letter
    | .group digits => namedChar? digits
    | _ => none
  match named with
  | some char => [char]
  | none => piece.written

def resolved : EscapePiece → Text
  | .escaped letter =>
    match escapedChar? letter with
    | some char => [char]
    | none => ['\\', letter]
  | .group digits => codeEscape digits
  | .openGroup digits => codeEscape digits
  | piece => piece.written

/-- The group is closed, and no sign stands in front of a number that names a character. -/
def isRegular : EscapePiece → Bool
  | .openGroup _ => false
  | .group ('+' :: digits) => (namedChar? digits).isNone
  | _ => true

end EscapePiece

open EscapePiece

theorem takeWhile_append_dropWhile_of_mem {mark : Char} {text : Text} (member : mark ∈ text) :
    text.takeWhile (· ≠ mark) ++ mark :: (text.dropWhile (· ≠ mark)).drop 1 = text := by
  cases behind : text.dropWhile (· ≠ mark) with
  | nil => simpa using List.dropWhile_eq_nil_iff.mp behind mark member
  | cons head rest =>
      have stops := List.head?_dropWhile_not (· ≠ mark) text
      rw [behind] at stops
      have same : head = mark := by simpa using stops
      rw [same] at behind
      rw [List.drop_one, List.tail_cons, ← behind, List.takeWhile_append_dropWhile]

theorem flatMap_written_escapePieces (text : Text) : (escapePieces text).flatMap written = text := by
  fun_induction escapePieces text with
  | case1 => rfl
  | case2 rest closed inductionHypothesis =>
      have whole := takeWhile_append_dropWhile_of_mem closed
      rw [List.flatMap_cons, inductionHypothesis]
      simpa [written] using whole
  | case3 rest opened => simp [written]
  | case4 => rfl
  | case5 letter rest noGroup inductionHypothesis =>
      rw [List.flatMap_cons, inductionHypothesis]
      rfl
  | case6 head rest _ _ _ inductionHypothesis =>
      rw [List.flatMap_cons, inductionHypothesis]
      rfl

theorem unescapeWithin_eq_flatMap (text : Text) {fuel : Nat} (enough : text.length ≤ fuel) :
    unescapeWithin fuel text = (escapePieces text).flatMap resolved := by
  have spent {head : Char} {rest : Text} {fuel : Nat} (enough : (head :: rest).length ≤ fuel) :
      ∃ left, fuel = left + 1 ∧ rest.length ≤ left :=
    ⟨fuel - 1, by rw [List.length_cons] at enough; omega, by rw [List.length_cons] at enough; omega⟩
  fun_induction escapePieces text generalizing fuel with
  | case1 => cases fuel <;> rfl
  | case2 rest closed inductionHypothesis =>
      obtain ⟨left, rfl, within⟩ := spent enough
      have shorter := (List.dropWhile_suffix (· ≠ '\x7d') (l := rest)).length_le
      rw [unescapeWithin, inductionHypothesis, List.flatMap_cons]
      · rfl
      · simp only [List.length_cons] at within
        rw [List.length_drop]
        omega
  | case3 rest opened =>
      obtain ⟨left, rfl, within⟩ := spent enough
      have all : ∀ char ∈ rest, decide (char ≠ '\x7d') = true := fun char member =>
        decide_eq_true fun same => opened (same ▸ member)
      have finished : unescapeWithin left [] = [] := by cases left <;> rfl
      rw [unescapeWithin, List.takeWhile_eq_self_iff.mpr all, List.dropWhile_eq_nil_iff.mpr all,
        List.drop_nil, finished, List.flatMap_singleton, List.append_nil]
      rfl
  | case4 =>
      obtain ⟨left, rfl, -⟩ := spent enough
      cases left <;> rfl
  | case5 letter rest noGroup inductionHypothesis =>
      obtain ⟨left, rfl, within⟩ := spent enough
      rw [unescapeWithin, inductionHypothesis (Nat.le_of_succ_le within), List.flatMap_cons]
      · rfl
      · exact noGroup
  | case6 head rest noGroup noEnd noLetter inductionHypothesis =>
      obtain ⟨left, rfl, within⟩ := spent enough
      have noEscape : head ≠ '\\' := by
        rintro rfl
        cases rest with
        | nil => exact noEnd rfl rfl
        | cons letter others => exact noLetter letter others rfl rfl
      rw [unescapeWithin_char noEscape, inductionHypothesis within]
      rfl

/-- Resolving the escapes of a text resolves its pieces one by one. -/
theorem unescape_eq_flatMap (text : Text) :
    unescape text = (escapePieces text).flatMap resolved :=
  unescapeWithin_eq_flatMap text (Nat.le_refl _)

/-! ## Regular pieces -/

theorem lookup_escapeLetters (letter : Char) :
    escapeLetters.lookup letter = escapedChar? letter := by
  unfold escapedChar?
  split
  case h_8 other feed tab return_ zero slash quote apostrophe =>
    have unlisted : letter ∉ escapeLetters.map Prod.fst := by
      simp only [escapeLetters, List.map_cons, List.map_nil, List.mem_cons, List.not_mem_nil,
        or_false, not_or]
      exact ⟨feed, tab, return_, zero, slash, quote, apostrophe⟩
    refine List.lookup_eq_none_iff.mpr fun pair member => bne_iff_ne.mpr ?_
    rintro rfl
    exact unlisted (List.mem_map_of_mem member)
  all_goals rfl

def withoutSign : Text → Text
  | '+' :: digits => digits
  | digits => digits

theorem withoutSign_of_unsigned {digits : Text} (unsigned : ∀ rest, digits = '+' :: rest → False) :
    withoutSign digits = digits := by
  unfold withoutSign
  split
  · exact (unsigned _ rfl).elim
  · rfl

theorem codeEscape_eq (digits : Text) :
    codeEscape digits =
      match namedChar? (withoutSign digits) with
      | some char => [char]
      | none => (group digits).written := by
  have code : codeOfDigits? digits = Text.number? 16 (withoutSign digits) := by
    unfold codeOfDigits?
    split
    · rfl
    · rename_i unsigned
      rw [withoutSign_of_unsigned unsigned]
  rw [codeEscape, code, ← namedChar?_eq]
  rfl

theorem namedChar?_signed (digits : Text) : namedChar? ('+' :: digits) = none := by
  have sign : hexDigit? '+' = none := by decide
  rw [namedChar?, List.mapM_cons, sign]
  rfl

namespace EscapePiece

theorem resolved_eq_value {piece : EscapePiece} (regular : piece.isRegular = true) :
    piece.resolved = piece.value := by
  cases piece with
  | plain char => rfl
  | backslash => rfl
  | openGroup digits => cases regular
  | escaped letter =>
      simp only [resolved, value, lookup_escapeLetters]
      split <;> rfl
  | group digits =>
      simp only [resolved, value, codeEscape_eq]
      unfold isRegular at regular
      split at regular
      · rename_i same
        cases same
      · rename_i signed same
        cases same
        rw [withoutSign, Option.isNone_iff_eq_none.mp regular, namedChar?_signed]
      · rename_i unsigned
        rw [withoutSign_of_unsigned fun rest same => unsigned rest (by rw [same])]

theorem flatMap_resolved_eq {pieces : List EscapePiece}
    (regular : ∀ piece ∈ pieces, piece.isRegular = true) :
    pieces.flatMap resolved = pieces.flatMap value :=
  List.flatMap_congr fun piece member => resolved_eq_value (regular piece member)

/-- A sign that is passed over makes the text shorter by more than a character. -/
theorem length_resolved_of_signed {digits : Text} (irregular : (group digits).isRegular = false) :
    (group digits).resolved.length + 1 < (group digits).value.length := by
  unfold isRegular at irregular
  split at irregular
  · rename_i same
    cases same
  · rename_i signed same
    cases same
    obtain ⟨char, named⟩ := Option.isNone_eq_false_iff.trans Option.isSome_iff_exists |>.mp irregular
    simp [resolved, value, codeEscape_eq, withoutSign, named, namedChar?_signed, written]
  · cases irregular

theorem length_resolved_openGroup (digits : Text) :
    (openGroup digits).resolved.length < (openGroup digits).value.length ∨
      (openGroup digits).resolved.length = (openGroup digits).value.length + 1 := by
  simp only [resolved, codeEscape_eq]
  cases namedChar? (withoutSign digits) with
  | some char => exact .inl (by simp [value, written])
  | none => exact .inr (by simp [value, written])

/-- What the pieces are resolved to has not the length of what they stand for. -/
def Deviates (pieces : List EscapePiece) : Prop :=
  (pieces.flatMap resolved).length < (pieces.flatMap value).length ∨
    (pieces.flatMap resolved).length = (pieces.flatMap value).length + 1

theorem regular_or_deviates_cons {piece : EscapePiece} {pieces : List EscapePiece}
    (regular : piece.isRegular = true)
    (others : (∀ other ∈ pieces, other.isRegular = true) ∨ Deviates pieces) :
    (∀ other ∈ piece :: pieces, other.isRegular = true) ∨ Deviates (piece :: pieces) := by
  refine others.imp (fun all => List.forall_mem_cons.mpr ⟨regular, all⟩) fun deviates => ?_
  simp only [Deviates, List.flatMap_cons, List.length_append, resolved_eq_value regular]
  exact deviates.imp (fun shorter => by omega) (fun longer => by omega)

end EscapePiece

theorem regular_or_deviates (text : Text) :
    (∀ piece ∈ escapePieces text, piece.isRegular = true) ∨ Deviates (escapePieces text) := by
  fun_induction escapePieces text with
  | case1 => exact .inl (List.forall_mem_nil _)
  | case2 rest closed inductionHypothesis =>
      cases regular : (group (rest.takeWhile (· ≠ '\x7d'))).isRegular with
      | true => exact regular_or_deviates_cons regular inductionHypothesis
      | false =>
          have shorter := length_resolved_of_signed regular
          refine .inr (.inl ?_)
          simp only [List.flatMap_cons, List.length_append]
          rcases inductionHypothesis with all | less | more
          · have same := congrArg List.length (flatMap_resolved_eq all)
            omega
          · omega
          · omega
  | case3 rest opened =>
      refine .inr ?_
      simpa only [Deviates, List.flatMap_singleton] using length_resolved_openGroup rest
  | case4 => exact .inl (by simp [isRegular])
  | case5 letter rest noGroup inductionHypothesis =>
      exact regular_or_deviates_cons rfl inductionHypothesis
  | case6 head rest _ _ _ inductionHypothesis =>
      exact regular_or_deviates_cons rfl inductionHypothesis

/-- The pieces make up the text, and resolving its escapes gives what they stand for exactly if all
of them are regular: no group is left open, and none holds a plus sign in front of a number that
names a character. -/
theorem unescape_eq_values_iff (text : Text) :
    (escapePieces text).flatMap written = text ∧
      (unescape text = (escapePieces text).flatMap value ↔
        ∀ piece ∈ escapePieces text, piece.isRegular = true) := by
  refine ⟨flatMap_written_escapePieces text, ?_⟩
  rw [unescape_eq_flatMap]
  constructor
  · intro same
    rcases regular_or_deviates text with all | less | more
    · exact all
    · rw [same] at less
      exact absurd less (Nat.lt_irrefl _)
    · rw [same] at more
      omega
  · exact flatMap_resolved_eq

/-- A group that is left open is closed, although it names no character. -/
theorem unescape_closes_open_group :
    unescape "\\u\x7bzz" = "\\u\x7bzz\x7d".toList ∧
      (escapePieces "\\u\x7bzz").flatMap value = "\\u\x7bzz".toList := by
  refine ⟨by decide, ?_⟩
  simp [escapePieces, value, written]

end StyleMacros
