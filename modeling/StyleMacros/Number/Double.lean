import StyleMacros.Text.Basic

/-!
# Binary floating-point numbers

Decimal numbers rounded to doubles, and doubles written with the fewest digits that read back.
A finite magnitude is `mantissa * 2 ^ exponent` with a mantissa below `2 ^ 53` and an exponent
of at least `-1074`; the mantissa is at least `2 ^ 52` unless the exponent is the least.
-/

set_option autoImplicit false

namespace StyleMacros

structure Magnitude where
  mantissa : Nat
  exponent : Int
  deriving DecidableEq

inductive Double where
  | finite (negative : Bool) (magnitude : Magnitude)
  | infinite (negative : Bool)
  | nan
  deriving DecidableEq

/-! ## Rounding -/

/-- The integer nearest to a ratio; a half goes to the even neighbour. -/
def roundHalfEven (numerator denominator : Nat) : Nat :=
  let quotient := numerator / denominator
  let rest := 2 * (numerator % denominator)
  if rest < denominator then quotient
  else if denominator < rest then quotient + 1
  else if quotient % 2 = 0 then quotient
  else quotient + 1

def shiftRatio (numerator denominator : Nat) (exponent : Int) : Nat × Nat :=
  (numerator * Nat.pow 2 (-exponent).toNat, denominator * Nat.pow 2 exponent.toNat)

namespace Magnitude

def zero : Magnitude :=
  ⟨0, -1074⟩

/-- The magnitude nearest to a ratio, unless it is out of range. -/
def ofRatio? (numerator denominator : Nat) : Option Magnitude :=
  if numerator = 0 then some zero
  else
    let estimate : Int := (numerator.log2 : Int) - (denominator.log2 : Int) - 52
    let (high, low) := shiftRatio numerator denominator estimate
    let normal := if high < low * Nat.pow 2 52 then estimate - 1 else estimate
    let exponent := max normal (-1074)
    let (high, low) := shiftRatio numerator denominator exponent
    let mantissa := roundHalfEven high low
    let rounded : Magnitude :=
      if mantissa = Nat.pow 2 53 then ⟨Nat.pow 2 52, exponent + 1⟩ else ⟨mantissa, exponent⟩
    if rounded.exponent > 971 then none else some rounded

def ofDecimal? (digits : Nat) (exponent : Int) : Option Magnitude :=
  let top : Int := (Nat.toDigits 10 digits).length + exponent
  if digits = 0 || top < -400 then some zero
  else if top > 400 then none
  else ofRatio? (digits * Nat.pow 10 exponent.toNat) (Nat.pow 10 (-exponent).toNat)

/-! ## Shortest digits -/

/-- Whether `digits * 10 ^ scale` rounds to the magnitude: it lies between the midpoints to the
two neighbours, or on one of them if the mantissa is even. -/
def readsBack (magnitude : Magnitude) (digits : Nat) (scale : Int) : Bool :=
  let quarter := magnitude.exponent - 2
  let value := digits * Nat.pow 10 scale.toNat * Nat.pow 2 (-quarter).toNat
  let unit := Nat.pow 2 quarter.toNat * Nat.pow 10 (-scale).toNat
  let below :=
    if magnitude.mantissa = Nat.pow 2 52 && magnitude.exponent > -1074 then
      4 * magnitude.mantissa - 1
    else 4 * magnitude.mantissa - 2
  let above := 4 * magnitude.mantissa + 2
  if magnitude.mantissa % 2 = 0 then below * unit ≤ value && value ≤ above * unit
  else below * unit < value && value < above * unit

/-- The number of decimal places before the point; negative for a small magnitude. -/
def places (magnitude : Magnitude) : Int :=
  let scaled :=
    magnitude.mantissa * Nat.pow 2 magnitude.exponent.toNat * Nat.pow 10 330 /
      Nat.pow 2 (-magnitude.exponent).toNat
  ((Nat.toDigits 10 scaled).length : Int) - 330

/-- The nearest number of so many digits that reads back, if there is one. A number that has
gone up to the next power of ten counts as its first digit, one place up. -/
def digitsOfCount? (magnitude : Magnitude) (count : Nat) : Option (Nat × Int) :=
  let scale := magnitude.places - count
  let high :=
    magnitude.mantissa * Nat.pow 2 magnitude.exponent.toNat * Nat.pow 10 (-scale).toNat
  let low := Nat.pow 2 (-magnitude.exponent).toNat * Nat.pow 10 scale.toNat
  let floor := high / low
  let nearer := if 2 * (high % low) ≤ low then [floor, floor + 1] else [floor + 1, floor]
  (nearer.find? fun digits => magnitude.readsBack digits scale).map fun digits =>
    if digits = Nat.pow 10 count then (Nat.pow 10 (count - 1), scale + 1) else (digits, scale)

def shortest (magnitude : Magnitude) : Nat × Int :=
  if magnitude.mantissa = 0 then (0, 0)
  else (((List.range 17).map (· + 1)).findSome? magnitude.digitsOfCount?).getD (0, 0)

def text (magnitude : Magnitude) : Text :=
  let (number, scale) := magnitude.shortest
  let digits := Text.ofNat number
  if 0 ≤ scale then digits ++ List.replicate scale.toNat '0' ++ ['.', '0']
  else
    let fraction := (-scale).toNat
    let padded := List.replicate (fraction + 1 - digits.length) '0' ++ digits
    padded.take (padded.length - fraction) ++ '.' :: padded.drop (padded.length - fraction)

end Magnitude

/-! ## Reading and writing -/

/-- Digits with a point among them or not, at least one digit: the number without the point, and
the number of digits behind it. -/
def readDecimal (text : Text) : Option (Nat × Nat × Text) := do
  let whole := text.takeWhile Char.isDigit
  let rest := text.dropWhile Char.isDigit
  let (fraction, rest) :=
    match rest with
    | '.' :: behind => (behind.takeWhile Char.isDigit, behind.dropWhile Char.isDigit)
    | _ => ([], rest)
  return (← Text.number? 10 (whole ++ fraction), fraction.length, rest)

def readExponent : Text → Option Int
  | [] => some 0
  | letter :: rest =>
    if letter = 'e' || letter = 'E' then
      match rest with
      | '-' :: digits => (Text.number? 10 digits).map fun value => -(value : Int)
      | '+' :: digits => (Text.number? 10 digits).map Int.ofNat
      | digits => (Text.number? 10 digits).map Int.ofNat
    else none

namespace Double

def ofDecimal? (text : Text) : Option Double := do
  let (negative, body) :=
    match text with
    | '-' :: body => (true, body)
    | body => (false, body)
  let (digits, fraction, rest) ← readDecimal body
  let exponent ← readExponent rest
  return .finite negative (← Magnitude.ofDecimal? digits (exponent - fraction))

def text : Double → Text
  | .finite negative magnitude => (if negative then ['-'] else []) ++ magnitude.text
  | .infinite negative => if negative then "-inf" else "inf"
  | .nan => "NaN"

/-- Equality of numbers: the two zeros are equal, and not-a-number counts as itself. -/
def same : Double → Double → Bool
  | .finite leftSign left, .finite rightSign right =>
    left = right && (leftSign = rightSign || left.mantissa = 0)
  | left, right => left = right

end Double

end StyleMacros
