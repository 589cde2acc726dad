import ExchangeClient.Binary64.Text

/-!
# Decimals and doubles

A double becomes the decimal its shortest digits denote, or, if these are out of
range, the decimal with its own value. Doubles from 2^96 on have neither. A
decimal becomes a double by adding the quotient of its fraction to its whole part
and rounding the sum at the scale of the decimal; this is not always the nearest
double.
`formatDouble` and `parseDouble` are the texts of doubles built on these.
-/

namespace ExchangeClient

namespace Decimal

/-- A whole double as the decimal with its value, unless it is out of range. -/
def ofWhole? (v : Binary64) : Option Decimal :=
  ofSigned? v.negative (Binary64.units v.pattern / Binary64.one) 0

/-- A finite double as a decimal. Shortest digits that are out of range belong to whole doubles. -/
def ofBinary64? (v : Binary64) : Option Decimal :=
  if v.isFinite then (parse v.plainText).toOption <|> ofWhole? v else none

/-- The binary digits of a number, least significant first, without the leading zeros. -/
def binaryDigits (n : Nat) : List Bool :=
  if h : n < 2 then [n == 1] else (n % 2 == 1) :: binaryDigits (n / 2)

/-- Multiplies `result` by the squares of `base` that the digits select, rounding every product. -/
def powerBySquares (result base : Nat) : List Bool → Nat
  | [] => result
  | d :: rest =>
    powerBySquares (if d then Binary64.mulPattern result base else result)
      (Binary64.mulPattern base base) rest

/-- Ten to a power by repeated squaring. -/
def tenPower (n : Nat) : Nat :=
  powerBySquares (Binary64.nearest 1 1) (Binary64.nearest 10 1) (binaryDigits n)

/-- The magnitude of a decimal as a double. -/
def doublePattern (magnitude scale : Nat) : Nat :=
  if scale = 0 then Binary64.nearest magnitude 1
  else
    let p := Nat.pow 10 scale
    let whole := Binary64.nearest (magnitude / p) 1
    let fraction := Binary64.divPattern (Binary64.nearest (magnitude % p) 1) (Binary64.nearest p 1)
    if fraction = 0 then whole
    else
      let q := tenPower scale
      let shifted := Binary64.mulPattern (Binary64.addPattern whole fraction) q
      Binary64.divPattern (Binary64.nearest (Binary64.wholePart shifted) 1) q

def toBinary64 (a : Decimal) : Binary64 :=
  .ofPattern (a.coefficient < 0) (doublePattern a.magnitude a.scale)

end Decimal

/-- A finite double with all its whole digits and some fractional ones. -/
def Binary64.fixedChars (v : Binary64) (places : Nat) : List Char :=
  let (whole, fraction) :=
    Decimal.pointed (roundDiv .even (units v.pattern * Nat.pow 10 places) one) places
  v.signChars ++ whole ++ '.' :: fraction

/-- Drops the zeros a fraction ends with, the point if nothing follows it, and the sign of zero. -/
def trimFraction (cs : List Char) : List Char :=
  let trimmed :=
    if cs.contains '.' then ((Digits.dropTrailingZeros cs).reverse.dropWhile (· == '.')).reverse
    else cs
  if trimmed = ['-', '0'] then ['0'] else trimmed

/-- The canonical text of a double. -/
def formatDouble (v : Binary64) : String :=
  if v.isZero then "0"
  else match Decimal.ofBinary64? v with
    | some a => a.text
    | none =>
      if v.isFinite then String.ofList (trimFraction (v.fixedChars Decimal.renderedPlaces))
      else v.plainText

/-- Reads a numeral as a decimal if it can be held as one, and as the nearest double otherwise. -/
def parseDouble (text : String) : Except Decimal.NumeralError Binary64 :=
  match Decimal.parse text with
  | .ok a => .ok a.toBinary64
  | .error e =>
    match (Binary64.ofText? text).filter Binary64.isFinite with
    | some v => .ok v
    | none => .error e

end ExchangeClient
