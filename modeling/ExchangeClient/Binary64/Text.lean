import ExchangeClient.Binary64.Shortest
import ExchangeClient.Decimal.Numeral

/-!
# Doubles as texts

Doubles are written with their shortest digits in two layouts: always
positional, or positional from 1e-5 up to 1e16 with a fraction that is never
left out and with an exponent outside that range. The two layouts differ also
on ties between equally short decimals. Reading rounds the number denoted to
the nearest double.
-/

namespace ExchangeClient.Binary64

/-- Digits around a decimal point that stands `point` places after the first one. -/
def positional (digits : List Char) (point : Int) : List Char × List Char :=
  if point ≤ 0 then (['0'], List.replicate (-point).toNat '0' ++ digits)
  else
    let n := point.toNat
    (digits.take n ++ List.replicate (n - digits.length) '0', digits.drop n)

/-- The digits of a finite pattern without trailing zeros, and where the point stands. -/
def digitsAndPoint (tie : Tie) (pattern : Nat) : List Char × Int :=
  if pattern = 0 then (['0'], 1)
  else
    let s := shortest tie pattern
    let ds := Digits.ofNat s.digits
    (Digits.dropTrailingZeros ds, Int.ofNat ds.length + s.exponent)

def signChars (v : Binary64) : List Char := if v.negative then ['-'] else []

/-- The text without an exponent, whatever the magnitude. -/
def plainText (v : Binary64) : String :=
  if v.isNaN then "NaN"
  else if !v.isFinite then (if v.negative then "-inf" else "inf")
  else
    let (digits, point) := digitsAndPoint .away v.pattern
    let (whole, fraction) := positional digits point
    String.ofList (v.signChars ++ whole ++ (if fraction.isEmpty then [] else '.' :: fraction))

/-- The text of a finite double in a JSON document. -/
def jsonText (v : Binary64) : String :=
  let (digits, point) := digitsAndPoint .even v.pattern
  let body :=
    if -5 < point ∧ point ≤ 16 then
      let (whole, fraction) := positional digits point
      whole ++ '.' :: (if fraction.isEmpty then ['0'] else fraction)
    else
      let e := point - 1
      digits.take 1 ++ (if digits.length ≤ 1 then [] else '.' :: digits.drop 1)
        ++ 'e' :: (if e < 0 then '-' else '+') :: Digits.ofNat e.natAbs
  String.ofList (v.signChars ++ body)

/-- Whole digits times a power of ten, rounded; far powers are decided by length alone. -/
def nearestScientific (digits : List Char) (exponent : Int) : Nat :=
  let significant := digits.dropWhile (· == '0')
  let point := exponent + significant.length
  if significant.isEmpty ∨ point < -330 then 0
  else if 310 < point then infinity
  else
    let n := Digits.value significant
    if 0 ≤ exponent then nearest (n * Nat.pow 10 exponent.toNat) 1
    else nearest n (Nat.pow 10 (-exponent).toNat)

theorem nearestScientific_lt (digits : List Char) (exponent : Int) :
    nearestScientific digits exponent < signBit := by
  unfold nearestScientific
  simp only []
  split
  · decide
  · split
    · decide
    · split <;> exact nearest_lt _ _

/-- The power of ten an exponent denotes. -/
def exponentValue : Option (Bool × List Char) → Int
  | none => 0
  | some (negative, digits) =>
    if negative then -Int.ofNat (Digits.value digits) else Int.ofNat (Digits.value digits)

/-- The double nearest to a numeral. -/
def ofNumeral (n : Numeral) : Binary64 :=
  ⟨n.negative,
    nearestScientific (n.whole ++ n.fraction) (exponentValue n.exponent - n.fraction.length),
    nearestScientific_lt _ _⟩

/-- Reads a numeral, or one of the words for infinity and for what is no number. -/
def ofText? (text : String) : Option Binary64 :=
  let (negative, unsigned) := Numeral.splitSign text.toList
  let word := unsigned.map Char.toLower
  if word = "inf".toList ∨ word = "infinity".toList then some (infinite negative)
  else if word = "nan".toList then some ⟨negative, notANumber.pattern, notANumber.pattern_lt⟩
  else (Numeral.ofChars? text.toList).map ofNumeral

/-- The 16 hexadecimal digits of the bits. -/
def hexText (v : Binary64) : String :=
  String.ofList ((List.range 16).map fun i => Nat.digitChar (v.bits / Nat.pow 16 (15 - i) % 16))

end ExchangeClient.Binary64
