import ExchangeClient.Digits
import ExchangeClient.Rounding

/-!
# Binary floating point, double precision

A double is held as its sign and the 63 bits below it. Every finite double is a
whole multiple of 2^-1074, so its magnitude is a natural number of these units,
and every operation here is an exact quotient followed by one rounding to the
nearest double, ties to the even pattern. Patterns are ordered as the
magnitudes they stand for.
-/

namespace ExchangeClient

/-- The bit above the pattern. -/
def Binary64.signBit : Nat := 0x8000000000000000

/-- The leading digit of a significand, which patterns leave out. -/
def Binary64.implicitBit : Nat := 0x10000000000000

/-- A double: whether it is negative, and the bits of its magnitude. -/
structure Binary64 where
  negative : Bool
  pattern : Nat
  pattern_lt : pattern < Binary64.signBit
  deriving DecidableEq

namespace Binary64

/-- The pattern of infinity; larger ones are no numbers. -/
def infinity : Nat := 0x7ff0000000000000

/-- One, in units of 2^-1074. -/
def one : Nat := Nat.pow 2 1074

/-- The magnitude of a finite pattern in units of 2^-1074. -/
def units (pattern : Nat) : Nat :=
  if pattern < implicitBit then pattern
  else (implicitBit + pattern % implicitBit) * Nat.pow 2 (pattern / implicitBit - 1)

/-- The pattern nearest to `n / d` units, ties to the even one. -/
def nearestUnits (n d : Nat) : Nat :=
  let k := (n / d).log2 - 52
  Nat.min infinity (k * implicitBit + roundDiv .even n (d * Nat.pow 2 k))

/-- The pattern nearest to the number `n / d`. -/
def nearest (n d : Nat) : Nat := nearestUnits (n * one) d

theorem nearest_lt (n d : Nat) : nearest n d < signBit :=
  Nat.lt_of_le_of_lt (Nat.min_le_left _ _) (by decide)

def ofRatio (negative : Bool) (n d : Nat) : Binary64 := ⟨negative, nearest n d, nearest_lt n d⟩

instance : Inhabited Binary64 := ⟨⟨false, 0, by decide⟩⟩

def isFinite (v : Binary64) : Bool := v.pattern < infinity

def isZero (v : Binary64) : Bool := v.pattern == 0

def isNaN (v : Binary64) : Bool := infinity < v.pattern

/-- The 64 bits as a number. -/
def bits (v : Binary64) : Nat := (if v.negative then signBit else 0) + v.pattern

/-- The double of a sign and the 63 bits below it. -/
def ofPattern (negative : Bool) (pattern : Nat) : Binary64 :=
  ⟨negative, pattern % signBit, Nat.mod_lt _ (by decide)⟩

def ofBits (n : Nat) : Binary64 := ofPattern (n / signBit % 2 == 1) n

def notANumber : Binary64 := ⟨false, 0x7ff8000000000000, by decide⟩

def infinite (negative : Bool) : Binary64 := ⟨negative, infinity, by decide⟩

/-- The sum of two magnitudes, rounded. -/
def addPattern (p q : Nat) : Nat := nearestUnits (units p + units q) 1

def mulPattern (p q : Nat) : Nat := nearestUnits (units p * units q) one

def divPattern (p q : Nat) : Nat := nearest (units p) (units q)

/-- The whole number nearest to a magnitude, a half away from zero. -/
def wholePart (p : Nat) : Nat := roundDiv .away (units p) one

end Binary64
end ExchangeClient
