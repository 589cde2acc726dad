import ExchangeClient.Rounding

/-!
# Decimal amounts

Prices and amounts are decimals of at most 28 fractional digits whose digits,
read as a whole number, stay below 2^96. Decimals of different scale may denote
the same number, and so do the zeros of both signs; equality and order in this
library are those of the numbers, through `compare`, and never those of the
records.
-/

namespace ExchangeClient

/-- Magnitudes stay below this bound. -/
def Decimal.capacity : Nat := 0x1000000000000000000000000

/-- The number `magnitude / 10 ^ scale` with a sign, which zero may have too. -/
structure Decimal where
  negative : Bool
  magnitude : Nat
  scale : Nat
  magnitude_lt : magnitude < Decimal.capacity
  scale_le : scale ≤ 28
  deriving DecidableEq

namespace Decimal

/-- The most fractional digits a decimal holds. -/
def maxScale : Nat := 28

def zero : Decimal := ⟨false, 0, 0, by decide, by decide⟩

instance : Inhabited Decimal := ⟨zero⟩

def ofSigned? (negative : Bool) (magnitude scale : Nat) : Option Decimal :=
  if h : magnitude < capacity ∧ scale ≤ 28 then some ⟨negative, magnitude, scale, h.1, h.2⟩
  else none

/-- The number `coefficient / 10 ^ scale`; zero gets no sign. -/
def ofParts? (coefficient : Int) (scale : Nat) : Option Decimal :=
  ofSigned? (coefficient < 0) coefficient.natAbs scale

/-- A whole number of at most 96 bits. -/
def ofInt? (i : Int) : Option Decimal := ofParts? i 0

/-- The magnitude with its sign. -/
def coefficient (a : Decimal) : Int :=
  if a.negative then -Int.ofNat a.magnitude else Int.ofNat a.magnitude

/-- The numerators of two decimals over their common denominator. -/
def aligned (a b : Decimal) : Int × Int :=
  (a.coefficient * Nat.pow 10 b.scale, b.coefficient * Nat.pow 10 a.scale)

/-- The order of the numbers denoted. -/
def compare (a b : Decimal) : Ordering :=
  Ord.compare (aligned a b).1 (aligned a b).2

/-- Whether two decimals denote the same number. -/
def same (a b : Decimal) : Bool := (aligned a b).1 == (aligned a b).2

def isZero (a : Decimal) : Bool := a.magnitude == 0

def isPositive (a : Decimal) : Bool := 0 < a.coefficient

def neg (a : Decimal) : Decimal := { a with negative := !a.negative }

/-- The larger of two decimals; of two equal ones the second. -/
def max (a b : Decimal) : Decimal := if (a.compare b).isGT then a else b

/-- The smaller of two decimals; of two equal ones the first. -/
def min (a b : Decimal) : Decimal := if (a.compare b).isGT then b else a

end Decimal
end ExchangeClient
