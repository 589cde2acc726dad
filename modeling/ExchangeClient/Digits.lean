/-!
# Decimal digits

The digits `0` to `9`, the number a row of them denotes and the row of a number.
Whole numbers in texts are read with an optional sign; a row of digits may start
with zeros when read and never does when written.
-/

namespace ExchangeClient.Digits

/-- The value of a digit; other characters count as whatever their distance from `0` is. -/
def digitValue (c : Char) : Nat := c.toNat - 48

def digitChar (d : Nat) : Char := Char.ofNat (48 + d)

/-- The number a row of digits denotes. -/
def value (ds : List Char) : Nat := ds.foldl (fun n c => 10 * n + digitValue c) 0

/-- The digits of a number, most significant first, without leading zeros. -/
def ofNat (n : Nat) : List Char :=
  if n < 10 then [digitChar n] else ofNat (n / 10) ++ [digitChar (n % 10)]

def ofInt (i : Int) : List Char :=
  if i < 0 then '-' :: ofNat i.natAbs else ofNat i.natAbs

def natText (n : Nat) : String := String.ofList (ofNat n)

def intText (i : Int) : String := String.ofList (ofInt i)

/-- A non-empty row of digits as a number. -/
def readNat? (ds : List Char) : Option Nat :=
  if ds.isEmpty || !ds.all Char.isDigit then none else some (value ds)

/-- A row of digits after an optional sign. -/
def readInt? : List Char → Option Int
  | '+' :: ds => (readNat? ds).map Int.ofNat
  | '-' :: ds => (readNat? ds).map fun n => -Int.ofNat n
  | ds => (readNat? ds).map Int.ofNat

/-- The largest unsigned 64-bit number. -/
def maxUInt64 : Nat := 0xffffffffffffffff

/-- An unsigned 64-bit number, which may have a plus sign in front. -/
def readUInt64? (cs : List Char) : Option Nat :=
  (readNat? (match cs with
    | '+' :: ds => ds
    | _ => cs)).filter (· ≤ maxUInt64)

/-- Drops the zeros a row of digits ends with. -/
def dropTrailingZeros (ds : List Char) : List Char :=
  (ds.reverse.dropWhile (· == '0')).reverse

/-- Fills a row with zeros on the left up to a width. -/
def padLeft (width : Nat) (ds : List Char) : List Char :=
  List.replicate (width - ds.length) '0' ++ ds

/-- The range of a signed 64-bit number. -/
def fitsInt64 (i : Int) : Bool := -0x8000000000000000 ≤ i && i < 0x8000000000000000

/-- The range of an unsigned 64-bit number. -/
def fitsUInt64 (i : Int) : Bool := 0 ≤ i && i ≤ maxUInt64

end ExchangeClient.Digits
