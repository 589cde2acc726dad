import ExchangeClient.Binary64.Text

/-!
# Numbers in JSON documents

A whole number that fits 64 bits, signed or unsigned, is kept exactly; any other
number becomes a double. The digits that fit 64 bits are taken as a whole
number, the others only count for the power of ten, and one product or quotient
with that power gives the double. A number beyond the doubles cannot be read.
-/

namespace ExchangeClient.Json

inductive Number where
  | int (i : Int)
  | real (v : Binary64)
  deriving DecidableEq

namespace Number

/-- Appends digits to a number while it stays below 2^64; the digits left over come second. -/
def accumulate : Nat → List Char → Nat × List Char
  | n, [] => (n, [])
  | n, c :: rest =>
    let next := 10 * n + Digits.digitValue c
    if next ≤ Digits.maxUInt64 then accumulate next rest else (n, c :: rest)

/-- Divides by a power of ten in steps of 10^308; three steps bring any number to zero. -/
def divideByTens : Nat → Nat → Nat → Nat
  | 0, _, _ => 0
  | steps + 1, pattern, n =>
    if n ≤ 308 then Binary64.divPattern pattern (Binary64.nearest (Nat.pow 10 n) 1)
    else
      divideByTens steps (Binary64.divPattern pattern (Binary64.nearest (Nat.pow 10 308) 1))
        (n - 308)

/-- The magnitude of `significand * 10 ^ exponent`, unless it is beyond the doubles. -/
def scaled (significand : Nat) (exponent : Int) : Option Nat :=
  let pattern := Binary64.nearest significand 1
  if pattern = 0 then some 0
  else if 308 < exponent then none
  else if 0 ≤ exponent then
    let product := Binary64.mulPattern pattern (Binary64.nearest (Nat.pow 10 exponent.toNat) 1)
    if product < Binary64.infinity then some product else none
  else some (divideByTens 4 pattern (-exponent).toNat)

/-- The double a numeral stands for, unless it is beyond the doubles. -/
def double? (n : Numeral) : Option Binary64 :=
  let (whole, skipped) := accumulate 0 n.whole
  let (significand, left) := accumulate whole n.fraction
  let exponent := Binary64.exponentValue n.exponent + skipped.length
    - (n.fraction.length - left.length : Nat)
  (scaled significand exponent).map (.ofPattern n.negative)

/-- The number a numeral stands for; minus zero is a double. -/
def ofNumeral? (n : Numeral) : Option Number :=
  let magnitude := Digits.value n.whole
  if n.fraction.isEmpty && n.exponent.isNone && !n.negative
      && magnitude ≤ Digits.maxUInt64 then
    some (.int magnitude)
  else if n.fraction.isEmpty && n.exponent.isNone && n.negative && 0 < magnitude
      && magnitude ≤ 0x8000000000000000 then
    some (.int (-Int.ofNat magnitude))
  else (double? n).map .real

def text : Number → String
  | .int i => Digits.intText i
  | .real v => v.jsonText

end Number
end ExchangeClient.Json
