import ExchangeClient.Decimal.Arithmetic

/-!
# Reading decimal numerals

A numeral is `[+-]digits[.digits][(e|E)[+-]digits]` with a digit on at least one
side of the point. Digits are taken from the left while they fit: a whole part
of more than 96 bits is an error, and the first fractional digit that no longer
fits rounds what was taken and ends the reading. The exponent then moves the
point of what was read by at most 28 places.
-/

namespace ExchangeClient

/-- The parts of a numeral as written. -/
structure Numeral where
  negative : Bool
  whole : List Char
  fraction : List Char
  /-- Whether the exponent is negative, and its digits. -/
  exponent : Option (Bool × List Char)
  deriving DecidableEq, Repr

namespace Numeral

/-- A leading sign, and what follows it. -/
def splitSign : List Char → Bool × List Char
  | '+' :: rest => (false, rest)
  | '-' :: rest => (true, rest)
  | rest => (false, rest)

/-- The digits after a leading point, and what follows them. -/
def splitFraction : List Char → List Char × List Char
  | '.' :: rest => (rest.takeWhile Char.isDigit, rest.dropWhile Char.isDigit)
  | rest => ([], rest)

/-- The exponent that ends a numeral; the outer `none` is a malformed one. -/
def readExponent? : List Char → Option (Option (Bool × List Char))
  | [] => some none
  | c :: rest =>
    if c = 'e' ∨ c = 'E' then
      let (negative, digits) := splitSign rest
      if digits.isEmpty || !digits.all Char.isDigit then none else some (some (negative, digits))
    else none

def ofChars? (cs : List Char) : Option Numeral :=
  let (negative, unsigned) := splitSign cs
  let whole := unsigned.takeWhile Char.isDigit
  let (fraction, rest) := splitFraction (unsigned.dropWhile Char.isDigit)
  if whole.isEmpty && fraction.isEmpty then none
  else (readExponent? rest).map fun exponent => ⟨negative, whole, fraction, exponent⟩

end Numeral

namespace Decimal

/-- Takes the digits of a whole part. -/
def takeWhole : Nat → List Char → Option Nat
  | m, [] => some m
  | m, c :: rest =>
    let next := 10 * m + Digits.digitValue c
    if next < capacity then takeWhole next rest else none

/-- Magnitude and scale read so far. -/
structure Taken where
  magnitude : Nat
  scale : Nat

/-- Rounds a magnitude by the first digit that was left out. -/
def roundLast (m scale digit : Nat) : Option Taken :=
  if digit < 5 then some ⟨m, scale⟩
  else if m + 1 < capacity then some ⟨m + 1, scale⟩
  else match scale with
    | 0 => none
    | k + 1 => some ⟨(m + 1 + 4) / 10, k⟩

/-- Takes fractional digits while they fit. -/
def takeFraction : Nat → Nat → List Char → Option Taken
  | m, scale, [] => some ⟨m, scale⟩
  | m, scale, c :: rest =>
    let next := 10 * m + Digits.digitValue c
    if scale < maxScale ∧ next < capacity then takeFraction next (scale + 1) rest
    else roundLast m scale (Digits.digitValue c)

def take (whole fraction : List Char) : Option Taken :=
  (takeWhole 0 whole).bind fun m => takeFraction m 0 fraction

/-- Moves the point of `base` by `e` places to the left. -/
def lowerBy (base : Decimal) (e : Nat) : Option Decimal :=
  if base.scale + e ≤ maxScale then ofSigned? base.negative base.magnitude (base.scale + e)
  else
    let rounded := roundTo .away (maxScale - e) base
    ofSigned? base.negative (rounded.magnitude * Nat.pow 10 (maxScale - e - rounded.scale)) maxScale

/-- Moves the point of `base` by `e` places to the right. -/
def raiseBy (base : Decimal) (e : Nat) : Option Decimal :=
  if e ≤ base.scale then ofSigned? base.negative base.magnitude (base.scale - e)
  else fit (base.coefficient * Nat.pow 10 e) base.scale

def applyExponent (base : Decimal) : Option (Bool × List Char) → Option Decimal
  | none => some base
  | some (negative, digits) =>
    let e := Digits.value digits
    if maxScale < e then none else if negative then lowerBy base e else raiseBy base e

/-- The decimal a numeral stands for. -/
def ofNumeral? (n : Numeral) : Option Decimal :=
  (take n.whole n.fraction).bind fun taken =>
    (ofSigned? n.negative taken.magnitude taken.scale).bind fun base =>
      applyExponent base n.exponent

/-- Why a text is no decimal; it carries the text. -/
structure NumeralError where
  input : String
  deriving DecidableEq, Repr

def parse (text : String) : Except NumeralError Decimal :=
  match (Numeral.ofChars? text.toList).bind ofNumeral? with
  | some a => .ok a
  | none => .error ⟨text⟩

end Decimal
end ExchangeClient
