import ExchangeClient.Decimal.Basic
import ExchangeClient.Digits

/-!
# Canonical decimals and their texts

Amounts leave this program with at most eight fractional digits, a half rounded
away from zero, and without trailing zeros. `round` is that rounding on the
value and `text` writes it; `exactText` writes a decimal with all its digits.
-/

namespace ExchangeClient.Decimal

/-- The most fractional digits of a rendered amount. -/
def renderedPlaces : Nat := 8

/-- A magnitude after dividing out `k` digits, to nearest. -/
def dropDigits (tie : Tie) (k magnitude : Nat) : Nat := roundDiv tie magnitude (Nat.pow 10 k)

theorem dropDigits_le (tie : Tie) (k m : Nat) : dropDigits tie k m ≤ m :=
  roundDiv_le tie _ _ (Nat.pos_of_ne_zero (by simp))

/-- At most `places` fractional digits, to nearest; the sign stays. -/
def roundTo (tie : Tie) (places : Nat) (a : Decimal) : Decimal :=
  if a.scale ≤ places then a
  else
    ⟨a.negative, dropDigits tie (a.scale - places) a.magnitude, Nat.min places a.scale,
      Nat.lt_of_le_of_lt (dropDigits_le _ _ _) a.magnitude_lt,
      Nat.le_trans (Nat.min_le_right _ _) a.scale_le⟩

/-- The value as it is rendered: eight fractional digits, a half away from zero. -/
def round (a : Decimal) : Decimal := roundTo .away renderedPlaces a

/-- The digits of a magnitude around the decimal point. -/
def pointed (magnitude scale : Nat) : List Char × List Char :=
  let ds := Digits.padLeft (scale + 1) (Digits.ofNat magnitude)
  (ds.take (ds.length - scale), ds.drop (ds.length - scale))

/-- Plain notation with all fractional digits the scale has. -/
def fullText (a : Decimal) : String :=
  let (whole, fraction) := pointed a.magnitude a.scale
  String.ofList ((if a.coefficient < 0 then ['-'] else []) ++ whole
    ++ (if fraction.isEmpty then [] else '.' :: fraction))

/-- Plain notation without trailing zeros in the fraction, and without a sign for zero. -/
def exactText (a : Decimal) : String :=
  if a.isZero then "0"
  else
    let (whole, fraction) := pointed a.magnitude a.scale
    let kept := Digits.dropTrailingZeros fraction
    String.ofList ((if a.negative then ['-'] else []) ++ whole
      ++ (if kept.isEmpty then [] else '.' :: kept))

/-- The canonical text of an amount. -/
def text (a : Decimal) : String := a.round.exactText

end ExchangeClient.Decimal
