import ExchangeClient.Binary64.Basic

/-!
# The shortest decimal of a double

Of the decimals that round to a given double the ones with the fewest digits are
taken, and of these the nearest to the double. A double between two equally
near ones is decided by the caller. The numbers that round to a double form an
interval that contains its ends exactly when the pattern is even.
-/

namespace ExchangeClient

/-- The number `digits * 10 ^ exponent`. -/
structure Scientific where
  digits : Nat
  exponent : Int
  deriving DecidableEq, Repr

namespace Binary64

/-- How many decimal digits a number has. -/
def decimalLength (n : Nat) : Nat :=
  if n < 10 then 1 else decimalLength (n / 10) + 1

/-- The exponent of the leading decimal digit of a positive pattern. -/
def leadingExponent (pattern : Nat) : Int :=
  Int.ofNat (decimalLength (units pattern * Nat.pow 10 330 / one)) - 331

/-- The factors that bring units and multiples of `10 ^ e` to a common scale. -/
def gridFactors (e : Int) : Nat × Nat :=
  if 0 ≤ e then (1, Nat.pow 10 e.toNat * one) else (Nat.pow 10 (-e).toNat, one)

/-- Whether `c * 10 ^ e` rounds to the pattern. -/
def readsBack (pattern : Nat) (e : Int) (c : Nat) : Bool :=
  let (scale, step) := gridFactors e
  let low := (units (pattern - 1) + units pattern) * scale
  let high := (units pattern + units (pattern + 1)) * scale
  let point := 2 * c * step
  if pattern % 2 = 0 then low ≤ point && point ≤ high else low < point && point < high

/-- The multiple of `10 ^ e` that reads back as the pattern and is nearest to it. -/
def nearestOnGrid (tie : Tie) (pattern : Nat) (e : Int) : Option Nat :=
  let (scale, step) := gridFactors e
  let below := units pattern * scale / step
  match readsBack pattern e below, readsBack pattern e (below + 1) with
  | true, true => some (roundDiv tie (units pattern * scale) step)
  | true, false => some below
  | false, true => some (below + 1)
  | false, false => none

/-- Tries grids of one more digit until one has a point that reads back. -/
def searchGrid (tie : Tie) (pattern : Nat) (lead : Int) : Nat → Nat → Scientific
  | 0, tried =>
    let e := lead - tried
    let (scale, step) := gridFactors e
    ⟨roundDiv tie (units pattern * scale) step, e⟩
  | left + 1, tried =>
    let e := lead - tried
    match nearestOnGrid tie pattern e with
    | some c => ⟨c, e⟩
    | none => searchGrid tie pattern lead left (tried + 1)

/-- The fewest digits that read back as a positive finite pattern. -/
def shortest (tie : Tie) (pattern : Nat) : Scientific :=
  searchGrid tie pattern (leadingExponent pattern) 16 0

end Binary64
end ExchangeClient
