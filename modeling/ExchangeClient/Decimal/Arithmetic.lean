import ExchangeClient.Decimal.Canonical

/-!
# Sums, differences and products

The exact result is taken to the most fractional digits, at most 28, with which
it fits 96 bits; what is dropped rounds a half to the even neighbour. A result
that does not fit even as a whole number is an overflow: the checked operations
report it, the saturating ones give the largest decimal with the sign of the
exact result.
-/

namespace ExchangeClient.Decimal

/-- `magnitude / 10 ^ (scale + drop)` with the most digits, at most `scale`, that fit. -/
def fitFrom (negative : Bool) (magnitude drop : Nat) : Nat → Option Decimal
  | 0 => ofSigned? negative (dropDigits .even drop magnitude) 0
  | scale + 1 =>
    match ofSigned? negative (dropDigits .even drop magnitude) (scale + 1) with
    | some a => some a
    | none => fitFrom negative magnitude (drop + 1) scale

/-- The decimal nearest to `coefficient / 10 ^ scale`, unless that is out of range. -/
def fit (coefficient : Int) (scale : Nat) : Option Decimal :=
  fitFrom (coefficient < 0) coefficient.natAbs (scale - maxScale) (Nat.min scale maxScale)

/-- The exact sum over the larger of the two scales. -/
def exactSum (a b : Decimal) : Int × Nat :=
  let scale := Nat.max a.scale b.scale
  (a.coefficient * Nat.pow 10 (scale - a.scale) + b.coefficient * Nat.pow 10 (scale - b.scale),
    scale)

def exactProduct (a b : Decimal) : Int × Nat :=
  (a.coefficient * b.coefficient, a.scale + b.scale)

def checkedAdd (a b : Decimal) : Option Decimal := fit (exactSum a b).1 (exactSum a b).2

def checkedSub (a b : Decimal) : Option Decimal := checkedAdd a b.neg

def checkedMul (a b : Decimal) : Option Decimal := fit (exactProduct a b).1 (exactProduct a b).2

/-- The largest magnitude, with a sign. -/
def extreme (negative : Bool) : Decimal :=
  { zero with negative, magnitude := capacity - 1, magnitude_lt := by decide }

def add (a b : Decimal) : Decimal :=
  (checkedAdd a b).getD (extreme ((exactSum a b).1 < 0))

def sub (a b : Decimal) : Decimal := add a b.neg

def mul (a b : Decimal) : Decimal :=
  (checkedMul a b).getD (extreme ((exactProduct a b).1 < 0))

end ExchangeClient.Decimal
