/-!
# Texts

A text is a list of characters. Everything the library reads or writes is a text; `String`
appears only where bytes enter or leave the program. Offsets into a text count UTF-8 bytes.
-/

set_option autoImplicit false

namespace StyleMacros

abbrev Text := List Char

/-- A string literal stands for the list of its characters. -/
instance : Coe String Text := ⟨String.toList⟩

namespace Text

/-! ## Byte offsets -/

/-- The number of bytes of the UTF-8 form. -/
def size (text : Text) : Nat :=
  text.foldr (fun char total => char.utf8Size + total) 0

@[simp] theorem size_nil : size [] = 0 := rfl

@[simp] theorem size_cons (head : Char) (rest : Text) :
    size (head :: rest) = head.utf8Size + size rest := rfl

@[simp] theorem size_append (left right : Text) :
    size (left ++ right) = size left + size right := by
  induction left with
  | nil => simp
  | cons head rest inductionHypothesis =>
      rw [List.cons_append, size_cons, inductionHypothesis, size_cons, Nat.add_assoc]

/-- The text from byte `offset` on. An offset inside a character counts as the one behind it. -/
def dropBytes (offset : Nat) : Text → Text
  | [] => []
  | head :: rest => if offset = 0 then head :: rest else dropBytes (offset - head.utf8Size) rest

def takeBytes (offset : Nat) : Text → Text
  | [] => []
  | head :: rest => if offset = 0 then [] else head :: takeBytes (offset - head.utf8Size) rest

theorem takeBytes_append_dropBytes (offset : Nat) (text : Text) :
    takeBytes offset text ++ dropBytes offset text = text := by
  induction text generalizing offset with
  | nil => rfl
  | cons head rest inductionHypothesis =>
      by_cases zero : offset = 0 <;> simp [takeBytes, dropBytes, zero, inductionHypothesis]

def slice (text : Text) (start stop : Nat) : Text :=
  takeBytes (stop - start) (dropBytes start text)

/-! ## Leading pieces -/

/-- The characters of `whole` that come before its end part `rest`. -/
def before (whole rest : Text) : Text :=
  whole.take (whole.length - rest.length)

theorem before_append (front rest : Text) : before (front ++ rest) rest = front := by
  simp [before]

def after? (lead text : Text) : Option Text :=
  List.isPrefixOf? lead text

def endsWith (text tail : Text) : Bool :=
  tail.isSuffixOf text

/-! ## Pieces between separators -/

/-- The pieces between the occurrences of `separator`; there is always at least one. -/
def splitOn (separator : Char) : Text → List Text
  | [] => [[]]
  | head :: rest =>
    if head = separator then [] :: splitOn separator rest
    else
      match splitOn separator rest with
      | [] => [[head]]
      | piece :: pieces => (head :: piece) :: pieces

def join (separator : Text) (pieces : List Text) : Text :=
  List.intercalate separator pieces

def asLine (text : Text) : Text :=
  text ++ ['\n']

def withoutReturn (line : Text) : Text :=
  if endsWith line ['\r'] then line.dropLast else line

/-- The lines of a text: each ends at a line feed, a carriage return right before that feed
belongs to the break, and a feed at the very end opens no further line. -/
def lines (text : Text) : List Text :=
  match (splitOn '\n' text).reverse with
  | [] => []
  | last :: earlier =>
    let closed := earlier.reverse.map withoutReturn
    if last = [] then closed else closed ++ [last]

/-! ## Numerals -/

def ofNat (number : Nat) : Text :=
  Nat.toDigits 10 number

def digitValue? (base : Nat) (digit : Char) : Option Nat :=
  let value :=
    if '0' ≤ digit ∧ digit ≤ '9' then digit.toNat - '0'.toNat
    else if 'a' ≤ digit ∧ digit ≤ 'f' then digit.toNat - 'a'.toNat + 10
    else if 'A' ≤ digit ∧ digit ≤ 'F' then digit.toNat - 'A'.toNat + 10
    else base
  if value < base then some value else none

def number? (base : Nat) (digits : Text) : Option Nat :=
  if digits = [] then none
  else digits.foldl (fun total digit => do return (← total) * base + (← digitValue? base digit))
    (some 0)

end Text

end StyleMacros
